import BoringSSL.Cbs

/-!
# IP addresses as text

`x509v3_a2i_ipadd` of `crypto/x509/v3_utl.cc`, with `CONF_parse_list` of `crypto/conf/conf.cc`.  A
pointer into a string is what is left of the string from there, without the zero at its end.
-/

namespace BoringSSL

open ByteLib

def opensslIsspace (c : UInt8) : Bool := c ∈ ([9, 10, 11, 12, 13, 32] : Bytes)

def opensslFromxdigit (c : UInt8) : Option UInt8 :=
  if opensslIsdigit c then some (c - '0'.toUInt8)
  else if 'a'.toUInt8 ≤ c ∧ c ≤ 'f'.toUInt8 then some (c - 'a'.toUInt8 + 10)
  else if 'A'.toUInt8 ≤ c ∧ c ≤ 'F'.toUInt8 then some (c - 'A'.toUInt8 + 10)
  else none

section ParseList

variable {σ : Type} (sep : UInt8) (removeWhitespace : Bool) (listCb : Bytes → ℕ → σ → Option σ)

/-- The loop of `CONF_parse_list`; each round but the last goes on after a separator. -/
def confParseListLoop : ℕ → Bytes → σ → Option σ
  | 0, _, _ => none
  | fuel + 1, lstart, arg =>
    let lstart := if removeWhitespace then lstart.dropWhile opensslIsspace else lstart
    let elem := lstart.takeWhile (· ≠ sep)
    let ret :=
      if elem = [] then listCb [] 0 arg
      else
        let len := if removeWhitespace then (elem.reverse.dropWhile opensslIsspace).length
          else elem.length
        listCb lstart len arg
    ret.bind fun arg =>
      match lstart.drop elem.length with
      | [] => some arg
      | _ :: lstart => confParseListLoop fuel lstart arg

def confParseList (list : Bytes) (arg : σ) : Option σ :=
  confParseListLoop sep removeWhitespace listCb (list.length + 1) list arg

end ParseList

def getIpv4ComponentLoop (out : ℕ) : Bytes → Option (UInt8 × Bytes)
  | [] => none
  | c :: str =>
    if !opensslIsdigit c then none
    else
      let out := out * 10 + (c.toNat - '0'.toNat)
      if out > 255 then none
      else if str = [] ∨ str.head? = some '.'.toUInt8 then some (UInt8.ofNat out, str)
      -- an extra leading zero
      else if out = 0 then none
      else getIpv4ComponentLoop out str

def getIpv4Component (str : Bytes) : Option (UInt8 × Bytes) := getIpv4ComponentLoop 0 str

def getIpv4Dot : Bytes → Option Bytes
  | [] => none
  | c :: str => if c ≠ '.'.toUInt8 then none else some str

def ipv4FromAsc (str : Bytes) : Option Bytes := do
  let (a, str) ← getIpv4Component str
  let str ← getIpv4Dot str
  let (b, str) ← getIpv4Component str
  let str ← getIpv4Dot str
  let (c, str) ← getIpv4Component str
  let str ← getIpv4Dot str
  let (d, str) ← getIpv4Component str
  if str ≠ [] then none else some [a, b, c, d]

/-- `IPV6_STAT`: the bytes of `tmp` that are written, `total` of them; there is no `zero_pos` while
it is `-1`. -/
structure Ipv6Stat where
  tmp : Bytes
  zeroPos : Option ℕ
  zeroCnt : ℕ
  deriving DecidableEq, Repr

def Ipv6Stat.total (s : Ipv6Stat) : ℕ := s.tmp.length

def ipv6HexLoop (num : UInt16) : Bytes → Option UInt16
  | [] => some num
  | c :: str => (opensslFromxdigit c).bind fun val => ipv6HexLoop (num <<< 4 ||| val.toUInt16) str

def ipv6Hex (str : Bytes) : Option Bytes :=
  if str.length > 4 then none
  else (ipv6HexLoop 0 str).map fun num : UInt16 => [(num >>> 8).toUInt8, (num &&& 0xff).toUInt8]

def ipv6Cb (elem : Bytes) (len : ℕ) (s : Ipv6Stat) : Option Ipv6Stat :=
  if s.total = 16 then none
  else if len = 0 then
    if s.zeroPos ≠ none ∧ s.zeroPos ≠ some s.total then none
    else if s.zeroCnt ≥ 3 then none
    else some { s with
      zeroPos := some s.total
      zeroCnt := s.zeroCnt + 1 }
  else if len > 4 then
    if s.total > 12 then none
    -- it must be the end of the string
    else if elem.length ≠ len then none
    else (ipv4FromAsc elem).map fun v4 => { s with tmp := s.tmp ++ v4 }
  else (ipv6Hex (elem.take len)).map fun out => { s with tmp := s.tmp ++ out }

def zerosOk (s : Ipv6Stat) : Bool :=
  match s.zeroPos with
  | none => s.total = 16
  | some zeroPos =>
    if s.total ≥ 16 then false
    else if s.zeroCnt > 3 then false
    else if s.zeroCnt = 3 then s.total = 0
    else if s.zeroCnt = 2 then zeroPos = 0 || zeroPos = s.total
    else !(zeroPos = 0 || zeroPos = s.total)

def formatIpv6 (s : Ipv6Stat) : Bytes :=
  match s.zeroPos with
  | some zeroPos =>
    s.tmp.take zeroPos ++ List.replicate (16 - s.total) 0 ++ s.tmp.drop zeroPos
  | none => s.tmp

def ipv6FromAsc (str : Bytes) : Option Bytes := do
  let v6stat ← confParseList ':'.toUInt8 false ipv6Cb str ⟨[], none, 0⟩
  if zerosOk v6stat then some (formatIpv6 v6stat) else none

/-- `x509v3_a2i_ipadd`: the bytes it writes, as many as it returns. -/
def x509v3A2iIpadd (ipasc : Bytes) : Option Bytes :=
  if ':'.toUInt8 ∈ ipasc then ipv6FromAsc ipasc else ipv4FromAsc ipasc

end BoringSSL
