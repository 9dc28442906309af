import BoringSSL.Proofs.X509Names

/-!
# URIs and name constraints

`nc_uri` ends the host at the first colon after the scheme, and looks for a slash only if there is
none.  A colon after the host is that of a port, or one in the path: in that case the host it finds
reaches into the path, and is in none of the subtrees it should be in.
-/

namespace BoringSSL

open ByteLib List

namespace NameCheck

variable {c : UInt8} {a uri host : Bytes}

lemma cbsGetUntilFirst_append (h : c ∉ a) (b : Bytes) :
    cbsGetUntilFirst (a ++ c :: b) c = some (a, c :: b) := by
  have hne : ∀ x ∈ a, decide (x ≠ c) = true := fun x hx => by
    simpa using fun heq : x = c => h (heq ▸ hx)
  rw [cbsGetUntilFirst, if_pos (by simp), takeWhile_append_of_pos hne, dropWhile_append_of_pos hne]
  simp

lemma cbsGetUntilFirst_none (h : c ∉ a) : cbsGetUntilFirst a c = none :=
  if_neg h

/-- A URI `scheme://host[:port][/rest]`. -/
structure HostUri where
  scheme : Bytes
  host : Bytes
  port : Option Bytes
  rest : Option Bytes
  scheme_ok : ':'.toUInt8 ∉ scheme
  host_ne : host ≠ []
  host_ok : ':'.toUInt8 ∉ host ∧ '/'.toUInt8 ∉ host
  port_ok : ∀ p, port = some p → ∀ c ∈ p, opensslIsdigit c = true

namespace HostUri

variable (u : HostUri)

/-- The text of the URI. -/
def text : Bytes :=
  u.scheme ++ ':'.toUInt8 :: '/'.toUInt8 :: '/'.toUInt8 :: (u.host
    ++ (u.port.elim [] (':'.toUInt8 :: ·) ++ u.rest.elim [] ('/'.toUInt8 :: ·)))

/-- The first colon after the host, if there is one, is that of the port. -/
def ColonIsPort : Prop := u.port.isSome = true ∨ ∀ r, u.rest = some r → ':'.toUInt8 ∉ r

variable {u}

lemma uriHost_text (h : u.ColonIsPort) : uriHost u.text = some u.host := by
  obtain ⟨hcolon, hslash⟩ := u.host_ok
  have hne : ':'.toUInt8 ≠ '/'.toUInt8 := by decide
  simp only [uriHost, text, cbsGetUntilFirst_append u.scheme_ok, ne_eq, not_true_eq_false, or_self,
    if_false]
  cases hport : u.port with
  | some p =>
    simp only [Option.elim_some, cons_append, cbsGetUntilFirst_append hcolon]
  | none =>
    cases hrest : u.rest with
    | none =>
      simp only [Option.elim_none, List.append_nil, cbsGetUntilFirst_none hcolon,
        cbsGetUntilFirst_none hslash]
    | some r =>
      have hr : ':'.toUInt8 ∉ r := by simpa [ColonIsPort, hport, hrest] using h
      have hall : ':'.toUInt8 ∉ u.host ++ '/'.toUInt8 :: r := by simp [hcolon, hr, hne]
      simp only [Option.elim_none, Option.elim_some, nil_append, cbsGetUntilFirst_none hall,
        cbsGetUntilFirst_append hslash]

/-- Otherwise the host that is found reaches up to a colon in the path. -/
lemma uriHost_text_colon (h : ¬ u.ColonIsPort) :
    ∃ a, uriHost u.text = some (u.host ++ '/'.toUInt8 :: a) := by
  rw [ColonIsPort, not_or, not_forall] at h
  obtain ⟨hport, r, hr⟩ := h
  rw [Classical.not_imp, not_not] at hr
  obtain ⟨a, b, hab, ha⟩ := eq_append_cons_of_mem hr.2
  have hall : ':'.toUInt8 ∉ u.host ++ '/'.toUInt8 :: a := by
    simp [u.host_ok.1, ha, show ':'.toUInt8 ≠ '/'.toUInt8 by decide]
  refine ⟨a, ?_⟩
  have hfirst := cbsGetUntilFirst_append hall b
  simp only [append_assoc, cons_append] at hfirst
  simp only [uriHost, text, cbsGetUntilFirst_append u.scheme_ok, ne_eq, not_true_eq_false, or_self,
    if_false, Option.not_isSome_iff_eq_none.mp hport, hr.1, hab, Option.elim_none,
    Option.elim_some, nil_append, hfirst]

/-- The base is the host, or starts with a dot and is a suffix of it, without regard to case. -/
def InUriSubtree (host base : Bytes) : Prop :=
  (base.head? = some '.'.toUInt8 ∧ lower base <:+ lower host) ∨ lower base = lower host

lemma ncUri_eq (hhost : uriHost uri = some host) (hne : host ≠ []) (base : Bytes) : ncUri uri base
      = if startsWith base '.'.toUInt8 then
          if hasSuffixCase host base then .ok else .permittedViolation
        else if !equalCase base host then .permittedViolation
        else .ok := by
  have hlen : host.length ≠ 0 := mt length_eq_zero_iff.mp hne
  simp only [ncUri, hhost, if_neg hlen]

lemma ncUri_eq_ok (hhost : uriHost uri = some host) (hne : host ≠ [])
    {base : Bytes} : ncUri uri base = .ok ↔ InUriSubtree host base := by
  rw [ncUri_eq hhost hne]
  by_cases hdot : base.head? = some '.'.toUInt8
  · have hin : InUriSubtree host base ↔ hasSuffixCase host base = true := by
      rw [hasSuffixCase_iff]
      exact ⟨fun h => h.elim And.right fun heq => heq ▸ suffix_rfl, fun h => .inl ⟨hdot, h⟩⟩
    simp only [startsWith, hdot, decide_true, if_true, hin]
    split_ifs with h <;> simp [h]
  · simp only [startsWith, hdot, decide_false, Bool.false_eq_true, if_false, InUriSubtree,
      false_and, false_or, ← equalCase_iff]
    split_ifs with h <;> simpa using h

/-- The constraints look at the host exactly where the first colon after it is that of a port.  The
result then depends on nothing else, and a certificate with a URI whose host is in an excluded
subtree is rejected. -/
theorem ncUri_host (u : HostUri) :
    ((∀ base, ncUri u.text base = .ok ↔ InUriSubtree u.host base) ↔ u.ColonIsPort)
      ∧ (u.ColonIsPort → ∀ base,
        (∀ u' : HostUri, u'.ColonIsPort → u'.host = u.host → ncUri u'.text base = ncUri u.text base)
        ∧ ∀ (x : Cert) (nc : NameConstraints), .uri u.text ∈ x.altname.get.getD [] →
          (∃ sub ∈ nc.excludedSubtrees, sub.base = .uri base) → InUriSubtree u.host base →
          nameConstraintsCheck x nc ≠ .ok) := by
  refine ⟨⟨fun hall => ?_, fun h base => ncUri_eq_ok (uriHost_text h) u.host_ne⟩,
    fun h base => ⟨fun u' h' heq => ?_, ?_⟩⟩
  · by_contra hcolon
    obtain ⟨a, ha⟩ := uriHost_text_colon hcolon
    have hin := (hall _).mp ((ncUri_eq_ok ha (by simp)).mpr (.inr rfl))
    have hle : (lower (u.host ++ '/'.toUInt8 :: a)).length ≤ (lower u.host).length :=
      hin.elim (fun hsuffix => hsuffix.2.length_le) fun heq => heq ▸ le_rfl
    simp only [lower, length_map, length_append, length_cons] at hle
    omega
  · rw [ncUri_eq (uriHost_text h') u'.host_ne, ncUri_eq (uriHost_text h) u.host_ne, heq]
  · rintro x nc hmem ⟨sub, hsub, hbase⟩ hin hcheck
    have hmatch := ncMatchAll_ok (nameConstraintsCheck_ok hcheck) _ hmem
    have hviolation := matchExcluded_ok (matchExcluded_of_ncMatch hmatch) sub hsub
      (by rw [hbase]; rfl)
    rw [hbase, ncMatchSingle, (ncUri_eq_ok (uriHost_text h) u.host_ne).mpr hin] at hviolation
    cases hviolation

def sampleUri (rest : Bytes) : HostUri :=
  ⟨[115], [98, 46, 99], none, some rest, by decide, by decide, by decide, nofun⟩

def excludesUriHost : NameConstraints := ⟨[], [⟨.uri [98, 46, 99], false, false⟩]⟩

def uriCert (rest : Bytes) : Cert :=
  { StoreCtx.plainCert 1 2 .absent with altname := .present [.uri (sampleUri rest).text] }

theorem ncUri_host_plain : InUriSubtree [98, 46, 99] [98, 46, 99]
    ∧ nameConstraintsCheck (uriCert [97]) excludesUriHost ≠ .ok := by
  have hcolon : (sampleUri [97]).ColonIsPort := .inr fun r hr => by
    obtain rfl : [97] = r := Option.some.inj hr
    decide
  have hin : InUriSubtree [98, 46, 99] [98, 46, 99] := .inr rfl
  obtain ⟨-, hreject⟩ := (ncUri_host (sampleUri [97])).2 hcolon [98, 46, 99]
  exact ⟨hin, hreject (uriCert [97]) excludesUriHost (mem_singleton_self _)
    ⟨_, mem_singleton_self _, rfl⟩ hin⟩

/-- The path `a:` makes `b.c/a` the host, which is not excluded. -/
theorem ncUri_host_colon : (sampleUri [97, 58]).host = [98, 46, 99]
    ∧ InUriSubtree [98, 46, 99] [98, 46, 99]
    ∧ ncUri (sampleUri [97, 58]).text [98, 46, 99] = .permittedViolation
    ∧ nameConstraintsCheck (uriCert [97, 58]) excludesUriHost = .ok :=
  ⟨rfl, .inr rfl, by decide +kernel, by decide +kernel⟩

end HostUri

end NameCheck

end BoringSSL
