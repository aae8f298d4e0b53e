import SupplyChain.Auth.Session

/-!
# Proofs: session tokens cannot be altered

A token has exactly three parts between its dots, so what is signed is read in one way only; and the text
of the expiry is read as the number that was written.
-/

namespace SupplyChain

open Double (ofInt)

/-! ## The parts of a token -/

theorem numberText_ne_nil (n : Int) : numberText n ≠ [] := by
  unfold numberText
  cases n with
  | ofNat m =>
    show m.repr.toList ≠ []
    rw [Nat.toList_repr]
    exact Nat.toDigits_ne_nil
  | negSucc m =>
    show ("-" ++ (m + 1).repr).toList ≠ []
    simp [String.toList_append]

theorem mem_numberText {n : Int} {c : Char} (h : c ∈ numberText n) : c.isDigit = true ∨ c = '-' := by
  unfold numberText at h
  cases n with
  | ofNat m => exact Or.inl (Decimal.isDigit_of_mem_repr (n := m) h)
  | negSucc m =>
    have htext : (Int.negSucc m).repr.toList = '-' :: (m + 1).repr.toList := by
      show ("-" ++ (m + 1).repr).toList = _
      simp [String.toList_append]
    rw [htext] at h
    rcases List.mem_cons.mp h with rfl | hdigit
    · exact Or.inr rfl
    · exact Or.inl (Decimal.isDigit_of_mem_repr hdigit)

theorem dot_notMem_numberText (n : Int) : '.' ∉ numberText n := by
  intro h
  rcases mem_numberText h with hdigit | hminus
  · exact absurd hdigit (by decide)
  · exact absurd hminus (by decide)

theorem dot_notMem_encode (bytes : List UInt8) : '.' ∉ Hex.encode bytes := fun h =>
  absurd (Hex.mem_digits_of_mem_encode h) (by decide)

theorem notMem_of_mem_splitOn {text part : List Char} {c : Char} (h : part ∈ text.splitOn c) :
    c ∉ part := by
  induction text generalizing part with
  | nil =>
    rw [List.splitOn_nil, List.mem_singleton] at h
    rw [h]
    exact List.not_mem_nil
  | cons d text ih =>
    rw [List.splitOn_cons_eq_if_modifyHead] at h
    split at h
    · rcases List.mem_cons.mp h with rfl | hrest
      · exact List.not_mem_nil
      · exact ih hrest
    · rename_i hd
      cases hparts : text.splitOn c with
      | nil => exact absurd hparts (List.splitOn_ne_nil c text)
      | cons first parts =>
        rw [hparts] at h ih
        rcases List.mem_cons.mp h with rfl | hrest
        · intro hmem
          rcases List.mem_cons.mp hmem with rfl | hfirst
          · exact hd (beq_self_eq_true _)
          · exact ih List.mem_cons_self hfirst
        · exact ih (List.mem_cons_of_mem _ hrest)

/-- What three parts without dots are joined to is split into these parts. -/
theorem splitOn_parts {a b c : List Char} (ha : '.' ∉ a) (hb : '.' ∉ b) (hc : '.' ∉ c) :
    (a ++ '.' :: b ++ '.' :: c).splitOn '.' = [a, b, c] := by
  rw [List.append_assoc, List.cons_append, List.splitOn_append_cons_self_of_not_mem ha,
    List.splitOn_append_cons_self_of_not_mem hb, List.splitOn_eq_singleton hc]

/-- A payload is read in one way. -/
theorem payload_inj {a b a' b' : List Char} (ha : '.' ∉ a) (hb : '.' ∉ b) (ha' : '.' ∉ a')
    (hb' : '.' ∉ b') (h : a ++ '.' :: b = a' ++ '.' :: b') : a = a' ∧ b = b' := by
  have hsplit := congrArg (List.splitOn '.') h
  rw [List.splitOn_append_cons_self_of_not_mem ha, List.splitOn_append_cons_self_of_not_mem ha',
    List.splitOn_eq_singleton hb, List.splitOn_eq_singleton hb'] at hsplit
  obtain ⟨hfirst, hrest⟩ := List.cons.inj hsplit
  exact ⟨hfirst, (List.cons.inj hrest).1⟩

/-- The expiry of a token that is issued at any time is exact. -/
theorem Number_expiry (now : Time) :
    Double.Number (numberText (now.ms + SESSION_TTL_MS)) = ofInt (now.ms + SESSION_TTL_MS) := by
  obtain ⟨hlow, hhigh⟩ := abs_le.mp now.range
  refine Double.Number_repr (abs_le.mpr ⟨?_, ?_⟩) <;> unfold SESSION_TTL_MS <;> omega

namespace Hmac

variable {mac : Hmac} {t : Time} {token x : List Char}

theorem decode_sign (mac : Hmac) (payload : List Char) :
    Hex.decode (mac.sign payload) = mac.digest payload := Hex.decode_encode _

theorem sign_ne_nil (mac : Hmac) (payload : List Char) : mac.sign payload ≠ [] := by
  rw [← List.length_pos_iff, sign, Hex.length_encode, mac.length_digest]
  decide

/-- What is accepted: three parts, a signature of the first two, and a time that has not passed. -/
theorem verifySessionToken_eq_some : mac.verifySessionToken t (some token) = some x ↔
    ∃ e s, token.splitOn '.' = [x, e, s] ∧ (x ≠ [] ∧ e ≠ [] ∧ s ≠ []) ∧
      Hex.decode s = mac.digest (x ++ '.' :: e) ∧ isFinite (Double.Number e) = true ∧
      (Double.Number e).lt (ofInt t.ms) = false := by
  cases token with
  | nil => simp [verifySessionToken]
  | cons c token =>
    rw [verifySessionToken.eq_3 _ _ _ (List.cons_ne_nil c token)]
    split
    · rename_i businessId expiresAtStr signature hparts
      dsimp only
      rw [decode_sign]
      constructor
      · intro h
        split at h
        · cases h
        rename_i hne
        split at h
        · cases h
        rename_i hsame
        split at h
        · cases h
        rename_i htime
        obtain rfl := Option.some.inj h
        simp only [not_or, timingSafeEqual, Bool.not_eq_true'] at hne hsame htime
        simp at hsame htime
        exact ⟨_, _, hparts, hne, hsame.2, htime⟩
      · rintro ⟨e, s, hsplit, ⟨hx, he, hs⟩, hsig, hfinite, hlive⟩
        rw [hparts] at hsplit
        obtain ⟨rfl, rfl, rfl⟩ : businessId = x ∧ expiresAtStr = e ∧ signature = s := by
          simpa using hsplit
        simp [hx, he, hs, hsig, timingSafeEqual, hfinite, hlive]
    · rename_i hparts
      simp only [reduceCtorEq, false_iff]
      rintro ⟨e, s, hsplit, -⟩
      exact hparts _ _ _ hsplit

theorem splitOn_createSessionToken (mac : Hmac) (now : Time) (id : BusinessId) :
    (mac.createSessionToken now id.text).splitOn '.' =
      [id.text, numberText (now.ms + SESSION_TTL_MS), mac.sign (tokenPayload now id.text)] :=
  splitOn_parts id.no_dot (dot_notMem_numberText _) (dot_notMem_encode _)

/-- A token is accepted until it expires, and as what it was created for. -/
theorem verifySessionToken_createSessionToken (mac : Hmac) (t₀ t : Time) (id : BusinessId) :
    mac.verifySessionToken t (some (mac.createSessionToken t₀ id.text)) = some id.text ↔
      t.ms ≤ t₀.ms + SESSION_TTL_MS := by
  have hparts := splitOn_createSessionToken mac t₀ id
  rw [verifySessionToken_eq_some]
  constructor
  · rintro ⟨e, s, hsplit, -, -, -, hlive⟩
    rw [hparts] at hsplit
    obtain ⟨rfl, rfl⟩ : numberText (t₀.ms + SESSION_TTL_MS) = e ∧ mac.sign (tokenPayload t₀ id.text) = s := by
      simpa using hsplit
    rw [Number_expiry, Double.lt_ofInt, decide_eq_false_iff_not, not_lt] at hlive
    exact hlive
  · intro hlive
    refine ⟨_, _, hparts, ⟨id.ne_nil, numberText_ne_nil _, sign_ne_nil mac _⟩, decode_sign mac _, ?_, ?_⟩
    · rw [Number_expiry]
      rfl
    · rw [Number_expiry, Double.lt_ofInt, decide_eq_false_iff_not, not_lt]
      exact hlive

/-- Tokens are accepted exactly until they expire; and if no other payload has the signature of an issued
token, then a text that carries its signature, in whatever spelling, is accepted only with the id and the
expiry of that token, and before it has expired. -/
theorem session_tokens_unaltered (mac : Hmac) (t₀ t : Time) (id : BusinessId) :
    (mac.verifySessionToken t (some (mac.createSessionToken t₀ id.text)) = some id.text ↔
      t.ms ≤ t₀.ms + SESSION_TTL_MS) ∧
    ((∀ payload, mac.digest payload = mac.digest (tokenPayload t₀ id.text) →
        payload = tokenPayload t₀ id.text) →
      ∀ token x, (signaturePart token).map Hex.decode =
          (signaturePart (mac.createSessionToken t₀ id.text)).map Hex.decode →
        mac.verifySessionToken t (some token) = some x →
          x = id.text ∧
          (∃ s, token.splitOn '.' = [id.text, numberText (t₀.ms + SESSION_TTL_MS), s]) ∧
          t.ms ≤ t₀.ms + SESSION_TTL_MS) := by
  refine ⟨verifySessionToken_createSessionToken mac t₀ t id, fun hdistinct token x hcarries haccepted => ?_⟩
  obtain ⟨e, s, hsplit, -, hsig, -, hlive⟩ := verifySessionToken_eq_some.mp haccepted
  have hsignature : Hex.decode s = mac.digest (tokenPayload t₀ id.text) := by
    rw [signaturePart, hsplit, signaturePart, splitOn_createSessionToken] at hcarries
    exact (Option.some.inj hcarries).trans (decode_sign mac _)
  have hx : '.' ∉ x := notMem_of_mem_splitOn (by rw [hsplit]; exact List.mem_cons_self)
  have he : '.' ∉ e := notMem_of_mem_splitOn (by
    rw [hsplit]
    exact List.mem_cons_of_mem _ List.mem_cons_self)
  obtain ⟨rfl, rfl⟩ := payload_inj hx he id.no_dot (dot_notMem_numberText _)
    (hdistinct _ (hsig.symm.trans hsignature))
  rw [Number_expiry, Double.lt_ofInt, decide_eq_false_iff_not, not_lt] at hlive
  exact ⟨rfl, ⟨s, hsplit⟩, hlive⟩

end Hmac

/-- The start of 2020. -/
def newYear : Time := ⟨1577836800000, by decide⟩

/-- Noon of the first of January 2020. -/
def thatDay : Time := ⟨1577836800000 + 43200000, by decide⟩

/-- An id without a dot. -/
def biz123 : BusinessId := ⟨"biz-123".toList, by decide, by decide⟩

/-- The digest under the secret "secret" of the payload that is signed for `biz123` then. -/
def newYearHmac : Hmac where
  digest payload :=
    if payload = tokenPayload newYear biz123.text then
      [201, 109, 12, 156, 189, 199, 100, 178, 168, 160, 59, 190, 23, 212, 145, 213, 217, 233, 178, 249,
        141, 33, 147, 108, 21, 169, 120, 13, 234, 19, 50, 216]
    else List.replicate 32 0
  length_digest payload := by split <;> rfl

theorem newYearHmac_distinct (payload : List Char)
    (h : newYearHmac.digest payload = newYearHmac.digest (tokenPayload newYear biz123.text)) :
    payload = tokenPayload newYear biz123.text := by
  by_contra hne
  simp only [newYearHmac] at h
  rw [if_neg hne, if_pos trivial] at h
  exact absurd h (by decide)

theorem newYear_unaltered :
    newYearHmac.verifySessionToken thatDay (some (newYearHmac.createSessionToken newYear biz123.text)) =
      some biz123.text ∧
    ∃ s, (newYearHmac.createSessionToken newYear biz123.text).splitOn '.' =
      [biz123.text, numberText 1580428800000, s] := by
  have haccepted := (Hmac.session_tokens_unaltered newYearHmac newYear thatDay biz123).1.mpr (by decide)
  exact ⟨haccepted, ((Hmac.session_tokens_unaltered newYearHmac newYear thatDay biz123).2
    newYearHmac_distinct _ _ rfl haccepted).2.1⟩

end SupplyChain
