import BoringSSL.TicketKeys

/-!
# Tickets are honoured for one to two rotation intervals

A key can only be displaced by the second key made after it, which is made at least an interval
after the first, so by then it is due to be dropped anyway: the keys a context holds are those that
are not, of all it has made (`Holds`).
-/

namespace BoringSSL.Tickets

open ByteLib List

variable {ctx : SslCtx} {now : ℕ} {made : List (KeyMaterial × ℕ)} {m : KeyMaterial} {cr : Crypto}
  {newKey : Option KeyMaterial} {c : ℕ} {sessionBuf : Bytes}

lemma sslCtxGetCurrentTime_lt (clock : Int64) : sslCtxGetCurrentTime clock < 2 ^ 63 := by
  have h := clock.toInt_lt
  rw [sslCtxGetCurrentTime]
  split_ifs <;> omega

/-- The time that a key is due to be rotated, or dropped, does not overflow. -/
lemma add_interval_mod {n : ℕ} (hc : c < 2 ^ 63) (hn : n ≤ 2 * rotationInterval) :
    (c + n) % 2 ^ 64 = c + n := by
  rw [rotationInterval] at hn
  exact Nat.mod_eq_of_lt (by omega)

/-- The key made of `m` at `c`, while it encrypts and afterwards. -/
def currentKey (m : KeyMaterial) (c : ℕ) : TicketKey := ⟨m, c + rotationInterval⟩

def prevKey (m : KeyMaterial) (c : ℕ) : TicketKey := ⟨m, c + 2 * rotationInterval⟩

/-- What a context holds at `now` of the keys it has made. -/
structure Holds (ctx : SslCtx) (now : ℕ) (made : List (KeyMaterial × ℕ)) : Prop where
  past : ∀ p ∈ made, p.2 ≤ now ∧ p.2 < 2 ^ 63
  current : ∀ key, ctx.ticketKeyCurrent = some key →
    ∃ m c, (m, c) ∈ made ∧ key = currentKey m c
  prev : ∀ key, ctx.ticketKeyPrev = some key → ∃ m c, (m, c) ∈ made ∧ key = prevKey m c ∧
    ∃ m' c', ctx.ticketKeyCurrent = some (currentKey m' c') ∧ c + rotationInterval ≤ c'
  held : ∀ m c, (m, c) ∈ made → ctx.ticketKeyCurrent = some (currentKey m c) ∨
    ctx.ticketKeyPrev = some (prevKey m c) ∨ c + 2 * rotationInterval ≤ now

lemma holds_new : Holds SslCtx.new 0 [] := by
  refine ⟨by simp, ?_, ?_, by simp⟩ <;> intro key h <;> cases h

lemma Holds.mono {now' : ℕ} (h : Holds ctx now made) (hle : now ≤ now') : Holds ctx now' made := by
  refine ⟨fun p hp => ⟨(h.past p hp).1.trans hle, (h.past p hp).2⟩, h.current, h.prev, ?_⟩
  intro m c hmem
  rcases h.held m c hmem with hcur | hprev | hexp
  · exact .inl hcur
  · exact .inr (.inl hprev)
  · exact .inr (.inr (hexp.trans hle))

/-- No key has expired. -/
structure Fresh (ctx : SslCtx) (now : ℕ) : Prop where
  current : ∃ m c, ctx.ticketKeyCurrent = some (currentKey m c) ∧ now < c + rotationInterval
  prev : ∀ key, ctx.ticketKeyPrev = some key → now < key.nextRotationTvSec

section Rotate

variable {ctx : SslCtx} {now : ℕ} {made : List (KeyMaterial × ℕ)}

lemma needsKey_iff (hcur : ctx.ticketKeyCurrent = some (currentKey m c)) :
    ctx.needsKey now = true ↔ c + rotationInterval ≤ now := by
  have hpos : rotationInterval ≠ 0 := by decide
  simp [SslCtx.needsKey, hcur, currentKey, hpos]

lemma dropPrev_current (ctx : SslCtx) (now : ℕ) :
    (ctx.dropPrev now).ticketKeyCurrent = ctx.ticketKeyCurrent := by
  unfold SslCtx.dropPrev
  split
  · rfl
  · split_ifs <;> rfl

lemma dropPrev_prev {key : TicketKey} :
    (ctx.dropPrev now).ticketKeyPrev = some key ↔
      ctx.ticketKeyPrev = some key ∧ now < key.nextRotationTvSec := by
  unfold SslCtx.dropPrev
  split
  · next hprev => simp [hprev]
  · grind

lemma Holds.dropPrev (h : Holds ctx now made) : Holds (ctx.dropPrev now) now made := by
  refine ⟨h.past, ?_, ?_, ?_⟩
  · rw [dropPrev_current]
    exact h.current
  · intro key hkey
    rw [dropPrev_current]
    exact h.prev key (dropPrev_prev.mp hkey).1
  · intro m c hmem
    rw [dropPrev_current]
    rcases h.held m c hmem with hcur | hprev | hexp
    · exact .inl hcur
    · by_cases hnow : now < c + 2 * rotationInterval
      · exact .inr (.inl (dropPrev_prev.mpr ⟨hprev, hnow⟩))
      · exact .inr (.inr (by omega))
    · exact .inr (.inr hexp)

lemma Holds.addKey (h : Holds ctx now made) (hneeds : ctx.needsKey now = true)
    (hnow : now < 2 ^ 63) (m : KeyMaterial) :
    Holds (ctx.addKey now m) now (made ++ [(m, now)]) := by
  have hcurrent : (ctx.addKey now m).ticketKeyCurrent = some (currentKey m now) := by
    rw [SslCtx.addKey, currentKey, add_interval_mod hnow (by omega)]
  have hold (m' : KeyMaterial) (c' : ℕ) (hc : (m', c') ∈ made)
      (hcur : ctx.ticketKeyCurrent = some (currentKey m' c')) :
      (ctx.addKey now m).ticketKeyPrev = some (prevKey m' c') := by
    have hlt := (h.past _ hc).2
    simp only [SslCtx.addKey, hcur, currentKey, prevKey, add_assoc]
    rw [add_interval_mod hlt (by omega), ← two_mul]
  refine ⟨?_, ?_, ?_, ?_⟩
  · intro p hp
    rcases mem_append.mp hp with hp | hp
    · exact h.past p hp
    · obtain rfl := mem_singleton.mp hp
      exact ⟨le_rfl, hnow⟩
  · grind
  · intro key hkey
    rw [hcurrent]
    rcases hcur : ctx.ticketKeyCurrent with _ | k
    · simp only [SslCtx.addKey, hcur] at hkey
      obtain ⟨-, -, -, -, m', c', hcur', -⟩ := h.prev key hkey
      rw [hcur] at hcur'
      cases hcur'
    · obtain ⟨m', c', hmem, rfl⟩ := h.current k hcur
      rw [hold m' c' hmem hcur] at hkey
      cases hkey
      exact ⟨m', c', by simp [hmem], rfl, m, now, rfl, (needsKey_iff hcur).mp hneeds⟩
  · intro m' c' hmem
    rcases mem_append.mp hmem with hmem | hmem
    · rcases h.held m' c' hmem with hcur | hprev | hexp
      · exact .inr (.inl (hold m' c' hmem hcur))
      · obtain ⟨m₁, c₁, -, heq, m₂, c₂, hcur, hle⟩ := h.prev _ hprev
        have hdue := (needsKey_iff hcur).mp hneeds
        have hc : c₁ = c' := by
          have := congrArg TicketKey.nextRotationTvSec heq
          simp only [prevKey] at this
          omega
        exact .inr (.inr (by omega))
      · exact .inr (.inr hexp)
    · grind

def rotationMakes (ctx : SslCtx) (now : ℕ) (newKey : Option KeyMaterial) : List (KeyMaterial × ℕ) :=
  if ctx.needsKey now then (newKey.map fun m => (m, now)).toList else []

lemma fresh_of_upToDate (h : Holds ctx now made) (hup : ctx.upToDate now = true) :
    Fresh ctx now ∧ ctx.needsKey now = false := by
  rw [SslCtx.upToDate, Bool.and_eq_true] at hup
  obtain ⟨hcur, hprev⟩ := hup
  rcases hkey : ctx.ticketKeyCurrent with _ | key
  · simp [hkey] at hcur
  · obtain ⟨m, c, -, rfl⟩ := h.current key hkey
    have hnow : now < c + rotationInterval := by
      have hpos : rotationInterval ≠ 0 := by decide
      simpa [hkey, currentKey, hpos] using hcur
    refine ⟨⟨⟨m, c, hkey, hnow⟩, fun k hk => by simpa [hk] using hprev⟩, ?_⟩
    rw [Bool.eq_false_iff, Ne, needsKey_iff hkey]
    omega

lemma fresh_dropPrev (hcur : ctx.ticketKeyCurrent = some (currentKey m c))
    (hnow : now < c + rotationInterval) : Fresh (ctx.dropPrev now) now :=
  ⟨⟨m, c, by rw [dropPrev_current, hcur], hnow⟩, fun _ hkey => (dropPrev_prev.mp hkey).2⟩

lemma rotate_spec (h : Holds ctx now made) (hnow : now < 2 ^ 63) (newKey : Option KeyMaterial) :
    Holds (sslCtxRotateTicketEncryptionKey ctx now newKey).2 now
        (made ++ rotationMakes ctx now newKey) ∧
      ((sslCtxRotateTicketEncryptionKey ctx now newKey).1 = true →
        Fresh (sslCtxRotateTicketEncryptionKey ctx now newKey).2 now) ∧
      (newKey ≠ none → (sslCtxRotateTicketEncryptionKey ctx now newKey).1 = true) := by
  unfold sslCtxRotateTicketEncryptionKey rotationMakes
  by_cases hup : ctx.upToDate now = true
  · obtain ⟨hfresh, hneeds⟩ := fresh_of_upToDate h hup
    rw [if_pos hup, hneeds, if_neg Bool.false_ne_true, List.append_nil]
    exact ⟨h, fun _ => hfresh, fun _ => rfl⟩
  · rw [if_neg hup]
    by_cases hneeds : ctx.needsKey now = true
    · rw [if_pos hneeds, if_pos hneeds]
      cases newKey with
      | none =>
        grind
      | some m =>
        have hadd := h.addKey hneeds hnow m
        have hcur : (ctx.addKey now m).ticketKeyCurrent = some (currentKey m now) := by
          rw [SslCtx.addKey, currentKey, add_interval_mod hnow (by omega)]
        exact ⟨hadd.dropPrev, fun _ => fresh_dropPrev hcur (by rw [rotationInterval]; omega),
          fun _ => rfl⟩
    · rw [if_neg hneeds, if_neg hneeds, List.append_nil]
      refine ⟨h.dropPrev, fun _ => ?_, fun _ => rfl⟩
      rcases hkey : ctx.ticketKeyCurrent with _ | key
      · simp [SslCtx.needsKey, hkey] at hneeds
      · obtain ⟨m, c, -, rfl⟩ := h.current key hkey
        rw [needsKey_iff hkey] at hneeds
        exact fresh_dropPrev hkey (by omega)

end Rotate

lemma Call.now_lt (call : Call) : call.now < 2 ^ 63 := by
  cases call with
  | encrypt clock => exact sslCtxGetCurrentTime_lt clock
  | decrypt clock => exact sslCtxGetCurrentTime_lt clock

lemma Call.next_eq (cr : Crypto) (ctx : SslCtx) (call : Call) :
    call.next cr ctx = if call.rotates then
      (sslCtxRotateTicketEncryptionKey ctx call.now call.newKey).2 else ctx := by
  cases call with
  | encrypt clock newKey iv sessionBuf =>
    rw [Call.next, sslEncryptTicketWithCipherCtx, Call.now, Call.newKey]
    by_cases hlen : sessionBuf.length > 0xffff - maxTicketOverhead
    · have hrot : (encrypt clock newKey iv sessionBuf).rotates = false := by
        simpa [Call.rotates] using hlen
      rw [if_pos hlen, hrot]
      rfl
    · have hrot : (encrypt clock newKey iv sessionBuf).rotates = true := by
        simpa [Call.rotates] using hlen
      rw [if_neg hlen, hrot, if_pos rfl]
      rcases sslCtxRotateTicketEncryptionKey ctx (sslCtxGetCurrentTime clock) newKey with ⟨ok, ctx'⟩
      cases ok
      · rfl
      · dsimp only
        cases ctx'.ticketKeyCurrent <;> rfl
  | decrypt clock newKey bufferOk ticket =>
    rw [Call.next, sslProcessTicket, sslDecryptTicketWithTicketKeys, Call.now, Call.newKey]
    by_cases hlen : ticket.length < sslTicketKeyNameLen + 16
    · have hrot : (decrypt clock newKey bufferOk ticket).rotates = false := by
        simpa [Call.rotates] using hlen
      rw [if_pos hlen, hrot]
      rfl
    · have hrot : (decrypt clock newKey bufferOk ticket).rotates = true := by
        simpa [Call.rotates] using hlen
      rw [if_neg hlen, hrot, if_pos rfl]
      rcases sslCtxRotateTicketEncryptionKey ctx (sslCtxGetCurrentTime clock) newKey with ⟨ok, ctx'⟩
      cases ok
      · rfl
      · dsimp only
        cases ctx'.findKey (ticket.take sslTicketKeyNameLen) <;> rfl

lemma Holds.next (cr : Crypto) (h : Holds ctx now made) (call : Call) (hle : now ≤ call.now) :
    Holds (call.next cr ctx) call.now (made ++ call.created ctx) := by
  rw [Call.next_eq, Call.created]
  by_cases hrot : call.rotates = true
  · simp only [hrot, if_true, Bool.true_and]
    exact (rotate_spec (h.mono hle) call.now_lt call.newKey).1
  · simp only [hrot, Bool.false_and, Bool.false_eq_true, if_false, List.append_nil]
    exact h.mono hle

lemma Holds.run (cr : Crypto) : ∀ {calls : List Call} {ctx : SslCtx} {now later : ℕ}
    {made : List (KeyMaterial × ℕ)}, Holds ctx now made →
    (now :: (calls.map Call.now ++ [later])).IsChain (· ≤ ·) →
    Holds (runCalls cr ctx calls) later (made ++ createdKeys cr ctx calls)
  | [], ctx, now, later, made, h, hchain => by
    rw [createdKeys, List.append_nil]
    exact h.mono (isChain_cons_cons.mp hchain).1
  | call :: calls, ctx, now, later, made, h, hchain => by
    obtain ⟨hle, hrest⟩ := isChain_cons_cons.mp hchain
    rw [createdKeys, ← append_assoc]
    exact Holds.run cr (h.next cr call hle) hrest

lemma createdKeys_append (cr : Crypto) : ∀ (calls calls' : List Call) (ctx : SslCtx),
    createdKeys cr ctx (calls ++ calls')
      = createdKeys cr ctx calls ++ createdKeys cr (runCalls cr ctx calls) calls'
  | [], _, _ => rfl
  | call :: calls, calls', ctx => by
    rw [cons_append, createdKeys, createdKeys, createdKeys_append cr calls, append_assoc]
    rfl

/-- The ticket for a session. -/
def sealTicket (cr : Crypto) (m : KeyMaterial) (iv : Block) (sessionBuf : Bytes) : Bytes :=
  let out := m.name.1 ++ iv.1 ++ cr.cbcEncrypt m.aesKey iv.1 sessionBuf
  out ++ cr.hmac m.hmacKey out

lemma sealTicket_length (cr : Crypto) (m : KeyMaterial) (iv : Block) (sessionBuf : Bytes) :
    (sealTicket cr m iv sessionBuf).length = 80 + 16 * (sessionBuf.length / 16) := by
  simp only [sealTicket, length_append, cr.hmac_length, cr.cbcEncrypt_length, m.name.2, iv.2]
  omega

lemma take_sealTicket (cr : Crypto) (m : KeyMaterial) (iv : Block) (sessionBuf : Bytes) :
    (sealTicket cr m iv sessionBuf).take sslTicketKeyNameLen = m.name.1 := by
  simp only [sealTicket, append_assoc]
  exact take_left' m.name.2

lemma iv_sealTicket (cr : Crypto) (m : KeyMaterial) (iv : Block) (sessionBuf : Bytes) :
    ((sealTicket cr m iv sessionBuf).drop sslTicketKeyNameLen).take 16 = iv.1 := by
  simp only [sealTicket, append_assoc]
  rw [drop_left' (i := sslTicketKeyNameLen) m.name.2]
  exact take_left' iv.2

lemma decrypt_sealTicket (cr : Crypto) (key : TicketKey) (iv : Block)
    (hlen : sessionBuf.length ≤ 0xffff - maxTicketOverhead) :
    decryptTicketWithCipherCtx cr key iv.1 (sealTicket cr key.toKeyMaterial iv sessionBuf) true
      = .success sessionBuf := by
  have hlength := sealTicket_length cr key.toKeyMaterial iv sessionBuf
  rw [decryptTicketWithCipherCtx, if_neg (by rw [sslTicketKeyNameLen]; omega)]
  generalize hout : key.name.1 ++ iv.1 ++ cr.cbcEncrypt key.aesKey iv.1 sessionBuf = out
  have hsplit : sealTicket cr key.toKeyMaterial iv sessionBuf = out ++ cr.hmac key.hmacKey out := by
    rw [← hout]
    rfl
  have houtLen : (sealTicket cr key.toKeyMaterial iv sessionBuf).length - 32 = out.length := by
    rw [hsplit, length_append, cr.hmac_length, Nat.add_sub_cancel]
  have hcipher : out.drop (sslTicketKeyNameLen + 16)
      = cr.cbcEncrypt key.aesKey iv.1 sessionBuf := by
    rw [← hout]
    exact drop_left' (by rw [length_append, key.name.2, iv.2]; rfl)
  rw [houtLen, hsplit, take_left, drop_left, if_neg (fun h => h rfl), hcipher, if_neg,
    cr.cbcDecrypt_cbcEncrypt]
  · rfl
  · rw [cr.cbcEncrypt_length, intMax]
    omega

section Calls

variable {ctx : SslCtx} {now : ℕ} {made : List (KeyMaterial × ℕ)}

lemma encrypt_spec {iv : Block} (h : Holds ctx now made) (hnow : now < 2 ^ 63) :
    (sslEncryptTicketWithCipherCtx cr ctx now newKey iv sessionBuf).1 ≠ .crashed ∧
    ∀ ticket, (sslEncryptTicketWithCipherCtx cr ctx now newKey iv sessionBuf).1 = .wrote ticket →
      ticket ≠ [] → sessionBuf.length ≤ 0xffff - maxTicketOverhead ∧
        ∃ m c, (m, c) ∈ made ++ rotationMakes ctx now newKey ∧ c ≤ now ∧
          now < c + rotationInterval ∧ ticket = sealTicket cr m iv sessionBuf := by
  rw [sslEncryptTicketWithCipherCtx]
  by_cases hlen : sessionBuf.length > 0xffff - maxTicketOverhead
  · grind
  · rw [if_neg hlen]
    obtain ⟨hholds, hfresh, -⟩ := rotate_spec h hnow newKey
    rcases hrot : sslCtxRotateTicketEncryptionKey ctx now newKey with ⟨ok, ctx'⟩
    rw [hrot] at hholds hfresh
    cases ok with
    | false => exact ⟨by simp, by simp⟩
    | true =>
      obtain ⟨⟨m, c, hcur, hlt⟩, -⟩ := hfresh rfl
      obtain ⟨m', c', hmem, heq⟩ := hholds.current _ hcur
      obtain ⟨rfl, hc⟩ := TicketKey.mk.inj heq
      obtain rfl : c = c' := Nat.add_right_cancel hc
      dsimp only at hcur ⊢
      rw [hcur]
      refine ⟨by simp, fun ticket hticket _ =>
        ⟨by omega, m, c, hmem, (hholds.past _ hmem).1, hlt, ?_⟩⟩
      exact (EncryptResult.wrote.inj hticket).symm

lemma findKey_spec (h : Holds ctx now made) (hfresh : Fresh ctx now)
    (hnames : (made.map fun p => p.1.name).Nodup) (hmem : (m, c) ∈ made) :
    (now < c + 2 * rotationInterval →
        ∃ key, ctx.findKey m.name.1 = some key ∧ key.toKeyMaterial = m) ∧
      (c + 2 * rotationInterval ≤ now → ctx.findKey m.name.1 = none) := by
  have hinj {m' : KeyMaterial} {c' : ℕ} (hmem' : (m', c') ∈ made) (hname : m.name = m'.name) :
      m' = m ∧ c' = c :=
    Prod.mk.inj (inj_on_of_nodup_map hnames hmem' hmem hname.symm)
  obtain ⟨m₁, c₁, hcur, hlt⟩ := hfresh.current
  obtain ⟨m₁', c₁', hmem₁, heq⟩ := h.current _ hcur
  obtain ⟨rfl, hc⟩ := TicketKey.mk.inj heq
  rw [SslCtx.findKey, hcur]
  by_cases hname : m.name = m₁.name
  · obtain ⟨rfl, rfl⟩ := hinj hmem₁ hname
    rw [Option.filter_some, if_pos (by simp [currentKey])]
    exact ⟨fun _ => ⟨_, rfl, rfl⟩, fun hle => by omega⟩
  · have hne : (m.name.1 == (currentKey m₁ c₁).name.1) = false := by
      simpa [currentKey, Subtype.ext_iff] using hname
    rw [Option.filter_some, hne, if_neg Bool.false_ne_true]
    constructor
    · intro hnow
      rcases h.held m c hmem with hheld | hheld | hexp
      · rw [hcur] at hheld
        obtain ⟨rfl, -⟩ := TicketKey.mk.inj (Option.some.inj hheld)
        exact absurd rfl hname
      · rw [hheld, Option.filter_some, if_pos (by simp [prevKey])]
        exact ⟨_, rfl, rfl⟩
      · omega
    · intro hexp
      cases hprev : ctx.ticketKeyPrev with
      | none => rfl
      | some key =>
        obtain ⟨m₂, c₂, hmem₂, rfl, -⟩ := h.prev key hprev
        have hlive := hfresh.prev _ hprev
        rw [Option.filter_some, if_neg]
        intro hsame
        have hname₂ : m.name = m₂.name := Subtype.ext (by simpa [prevKey] using hsame)
        obtain ⟨rfl, rfl⟩ := hinj hmem₂ hname₂
        simp only [prevKey] at hlive
        omega

lemma process_spec {iv : Block} (h : Holds ctx now made)
    (hnow : now < 2 ^ 63) (hnewKey : newKey ≠ none)
    (hnames : ((made ++ rotationMakes ctx now newKey).map fun p => p.1.name).Nodup)
    (hmem : (m, c) ∈ made ++ rotationMakes ctx now newKey)
    (hlen : sessionBuf.length ≤ 0xffff - maxTicketOverhead) :
    (sslProcessTicket cr ctx now newKey true (sealTicket cr m iv sessionBuf)).1
      = if now < c + 2 * rotationInterval then .success sessionBuf else .ignoreTicket := by
  have hlength := sealTicket_length cr m iv sessionBuf
  rw [sslProcessTicket, if_neg (by rw [sslTicketKeyNameLen]; omega), sslDecryptTicketWithTicketKeys,
    take_sealTicket, iv_sealTicket]
  obtain ⟨hholds, hfresh, hok⟩ := rotate_spec h hnow newKey
  rcases hrot : sslCtxRotateTicketEncryptionKey ctx now newKey with ⟨ok, ctx'⟩
  rw [hrot] at hholds hfresh hok
  obtain rfl : ok = true := hok hnewKey
  obtain ⟨hlive, hexp⟩ := findKey_spec hholds (hfresh rfl) hnames hmem
  dsimp only
  by_cases hlt : now < c + 2 * rotationInterval
  · obtain ⟨key, hkey, rfl⟩ := hlive hlt
    rw [if_pos hlt, hkey]
    exact decrypt_sealTicket cr key iv hlen
  · rw [if_neg hlt, hexp (by omega)]

end Calls

lemma created_of_rotates {call : Call} (h : call.rotates = true) :
    call.created ctx = rotationMakes ctx call.now call.newKey := by
  rw [Call.created, rotationMakes, h, Bool.true_and]

lemma keys_length_le (ctx : SslCtx) : ctx.keys.length ≤ 2 := by
  rw [SslCtx.keys, length_append]
  have hlen (o : Option TicketKey) : o.toList.length ≤ 1 := by cases o <;> simp
  have := hlen ctx.ticketKeyCurrent
  have := hlen ctx.ticketKeyPrev
  omega

/-- A ticket issued at `u` in any run, and presented at `t` after any further calls.  The key that
it was encrypted with was made at some `c`, and that alone decides what becomes of the ticket. -/
theorem ticket_honoured_until (cr : Crypto) (before between : List Call) (clock clock' : Int64)
    (newKey newKey' : Option KeyMaterial) (iv : Block) (sessionBuf ticket : Bytes)
    (hticket : (sslEncryptTicketWithCipherCtx cr (runCalls cr SslCtx.new before)
      (sslCtxGetCurrentTime clock) newKey iv sessionBuf).1 = .wrote ticket) (hne : ticket ≠ [])
    (hnewKey' : newKey' ≠ none) :
    let calls := before ++ .encrypt clock newKey iv sessionBuf ::
      (between ++ [.decrypt clock' newKey' true ticket])
    let u := sslCtxGetCurrentTime clock
    let t := sslCtxGetCurrentTime clock'
    let result := (sslProcessTicket cr (runCalls cr SslCtx.new
      (before ++ .encrypt clock newKey iv sessionBuf :: between)) t newKey' true ticket).1
    (calls.map Call.now).IsChain (· ≤ ·) →
    ((createdKeys cr SslCtx.new calls).map fun p => p.1.name).Nodup →
    (∃ p ∈ createdKeys cr SslCtx.new calls, ticket.take sslTicketKeyNameLen = p.1.name.1) ∧
    (∀ m c, (m, c) ∈ createdKeys cr SslCtx.new calls → ticket.take sslTicketKeyNameLen = m.name.1 →
      (c ≤ u ∧ u < c + rotationInterval) ∧
      (t < c + 2 * rotationInterval → result = .success sessionBuf) ∧
      (c + 2 * rotationInterval ≤ t → result = .ignoreTicket)) ∧
    (t < u + rotationInterval → result = .success sessionBuf) ∧
    (u + 2 * rotationInterval ≤ t → result = .ignoreTicket) ∧
    (∀ n, (runCalls cr SslCtx.new (calls.take n)).keys.length ≤ 2) := by
  intro calls u t result hchain hnames
  have hchain₁ : (0 :: (before.map Call.now ++ [u])).IsChain (· ≤ ·) := by
    refine List.IsChain.cons ?_ fun _ _ => Nat.zero_le _
    simp only [calls, map_append, map_cons] at hchain
    rw [append_cons] at hchain
    exact hchain.left_of_append
  have hchain₂ : (u :: (between.map Call.now ++ [t])).IsChain (· ≤ ·) := by
    simp only [calls, map_append, map_cons] at hchain
    exact hchain.right_of_append
  have h₁ := holds_new.run cr hchain₁
  rw [nil_append] at h₁
  obtain ⟨hlen, m, c, hmem, hcu, huc, rfl⟩ :=
    (encrypt_spec h₁ (sslCtxGetCurrentTime_lt clock)).2 ticket hticket hne
  have h₃ := (h₁.next cr (.encrypt clock newKey iv sessionBuf) le_rfl).run cr hchain₂
  have hmade : createdKeys cr SslCtx.new (before ++ .encrypt clock newKey iv sessionBuf :: between)
      = createdKeys cr SslCtx.new before ++ Call.created (runCalls cr SslCtx.new before)
        (.encrypt clock newKey iv sessionBuf) ++ createdKeys cr ((Call.encrypt clock newKey iv
          sessionBuf).next cr (runCalls cr SslCtx.new before)) between := by
    rw [createdKeys_append, createdKeys, append_assoc]
  have hctx : runCalls cr ((Call.encrypt clock newKey iv sessionBuf).next cr
      (runCalls cr SslCtx.new before)) between
      = runCalls cr SslCtx.new (before ++ .encrypt clock newKey iv sessionBuf :: between) := by
    simp only [runCalls, foldl_append, foldl_cons]
  rw [← hmade, hctx] at h₃
  -- The keys of the whole run are those made before the last call, and the one it makes.
  have hall : createdKeys cr SslCtx.new calls = createdKeys cr SslCtx.new
      (before ++ .encrypt clock newKey iv sessionBuf :: between) ++ rotationMakes (runCalls cr
        SslCtx.new (before ++ .encrypt clock newKey iv sessionBuf :: between)) t newKey' := by
    have hlong :
        (Call.decrypt clock' newKey' true (sealTicket cr m iv sessionBuf)).rotates = true := by
      have := sealTicket_length cr m iv sessionBuf
      rw [Call.rotates, decide_eq_true_eq, sslTicketKeyNameLen]
      omega
    have hcalls : calls = (before ++ .encrypt clock newKey iv sessionBuf :: between) ++
        [.decrypt clock' newKey' true (sealTicket cr m iv sessionBuf)] := by
      simp [calls]
    rw [hcalls, createdKeys_append, createdKeys, createdKeys, List.append_nil,
      created_of_rotates hlong]
    rfl
  have hmem' : (m, c) ∈ createdKeys cr SslCtx.new calls := by
    have hrot : (Call.encrypt clock newKey iv sessionBuf).rotates = true := by
      simpa [Call.rotates] using hlen
    rw [hall, hmade, created_of_rotates hrot, append_assoc, append_assoc, ← append_assoc]
    exact mem_append_left _ hmem
  have hresult : result = if t < c + 2 * rotationInterval then .success sessionBuf
      else .ignoreTicket := by
    rw [hall] at hnames hmem'
    exact process_spec h₃ (sslCtxGetCurrentTime_lt clock') hnewKey' hnames hmem' hlen
  have hlive (hlt : t < c + 2 * rotationInterval) : result = .success sessionBuf := by
    rw [hresult, if_pos hlt]
  have hdead (hle : c + 2 * rotationInterval ≤ t) : result = .ignoreTicket := by
    rw [hresult, if_neg (by omega)]
  rw [take_sealTicket]
  refine ⟨⟨(m, c), hmem', rfl⟩, fun m' c' hm' hname => ?_, fun hlt => hlive (by omega),
    fun hle => hdead (by omega), fun n => keys_length_le _⟩
  obtain ⟨rfl, rfl⟩ := Prod.mk.inj
    (inj_on_of_nodup_map hnames hm' hmem' (Subtype.ext hname.symm))
  exact ⟨⟨hcu, huc⟩, hlive, hdead⟩

/-- A cipher that only pads. -/
def paddingOnly : Crypto where
  hmac _ _ := replicate 32 0
  cbcEncrypt _ _ data :=
    data ++ replicate (16 - data.length % 16) (UInt8.ofNat (16 - data.length % 16))
  cbcDecrypt _ _ data := data.getLast?.map fun b => data.take (data.length - b.toNat)
  hmac_length _ _ := length_replicate
  cbcEncrypt_length _ _ data := by
    rw [length_append, length_replicate]
    omega
  cbcDecrypt_cbcEncrypt _ _ data := by
    have hpos : 16 - data.length % 16 ≠ 0 := by omega
    have hbyte : (UInt8.ofNat (16 - data.length % 16)).toNat = 16 - data.length % 16 := by
      rw [UInt8.toNat_ofNat']
      omega
    rw [getLast?_append, getLast?_replicate, if_neg hpos]
    simp [hbyte]

def filledKey (b : UInt8) : KeyMaterial :=
  ⟨⟨replicate 16 b, by simp⟩, ⟨replicate 16 b, by simp⟩, ⟨replicate 16 b, by simp⟩⟩

def filledIv : Block := ⟨replicate 16 9, by simp⟩

/-- A ticket for `[7]`, under the key made at 5; another key is made at 200000. -/
def rotatedRun : List Call :=
  [.encrypt 5 (some (filledKey 0)) filledIv [6], .encrypt 100 none filledIv [7],
    .encrypt 200000 (some (filledKey 1)) filledIv [8]]

theorem ticket_honoured_until_rotated :
    (sslProcessTicket paddingOnly (runCalls paddingOnly SslCtx.new rotatedRun)
        (sslCtxGetCurrentTime 345604) (some (filledKey 2)) true
        (sealTicket paddingOnly (filledKey 0) filledIv [7])).1 = .success [7] ∧
      (sslProcessTicket paddingOnly (runCalls paddingOnly SslCtx.new rotatedRun)
        (sslCtxGetCurrentTime 345605) (some (filledKey 2)) true
        (sealTicket paddingOnly (filledKey 0) filledIv [7])).1 = .ignoreTicket := by
  have honoured := fun clock' => ticket_honoured_until paddingOnly
    [.encrypt 5 (some (filledKey 0)) filledIv [6]]
    [.encrypt 200000 (some (filledKey 1)) filledIv [8]] 100 clock' none (some (filledKey 2))
    filledIv [7] (sealTicket paddingOnly (filledKey 0) filledIv [7]) (by decide +kernel)
    (by decide +kernel) (by simp)
  constructor
  · exact ((honoured 345604 (by decide +kernel) (by decide +kernel)).2.1 (filledKey 0) 5
      (by decide +kernel) (by decide +kernel)).2.1 (by decide +kernel)
  · exact ((honoured 345605 (by decide +kernel) (by decide +kernel)).2.1 (filledKey 0) 5
      (by decide +kernel) (by decide +kernel)).2.2 (by decide +kernel)

end BoringSSL.Tickets
