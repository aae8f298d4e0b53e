import SupplyChain.Auth.Cookies
import SupplyChain.Auth.Proofs.SessionProofs
import SupplyChain.Collections.Proofs.InsertionMapProofs

/-!
# Proofs: the session cookie survives the trip through a `Cookie` header

What `encodeURIComponent` writes holds no `;`, no `=` and no space, so the session pair is cut out of the
header as it was written; and no other segment sets the property of the session cookie.
-/

namespace SupplyChain

open Collections PercentEncoding

/-! ## The session pair -/

theorem toNat_lt_of_isAlphanum {c : Char} (h : c.isAlphanum = true) : c.toNat < 128 := by
  have hbelow : ∀ {last : UInt32}, c.val ≤ last → last.toNat < 128 → c.toNat < 128 := by
    intro last hle hlast
    exact Nat.lt_of_le_of_lt (UInt32.le_iff_toNat_le.mp hle) hlast
  rcases Bool.or_eq_true_iff.mp h with halpha | hdigit
  · rcases Bool.or_eq_true_iff.mp halpha with hupper | hlower
    · exact hbelow (of_decide_eq_true hupper).2 (by decide)
    · exact hbelow (of_decide_eq_true (Bool.and_eq_true_iff.mp hlower).2) (by decide)
  · exact hbelow (of_decide_eq_true (Bool.and_eq_true_iff.mp hdigit).2) (by decide)

theorem toNat_lt_of_unreserved {c : Char} (h : unreserved c = true) : c.toNat < 128 := by
  rcases Bool.or_eq_true_iff.mp h with halnum | hmark
  · exact toNat_lt_of_isAlphanum halnum
  · have hall : "-_.!~*'()".toList.all (fun c => c.toNat < 128) = true := by decide
    exact of_decide_eq_true (List.all_eq_true.mp hall c (List.contains_iff_mem.mp hmark))

/-- The characters of an encoded text. -/
def Plain (c : Char) : Prop := c ≠ ';' ∧ c ≠ '=' ∧ Double.isSpace c = false

instance (c : Char) : Decidable (Plain c) :=
  inferInstanceAs (Decidable (c ≠ ';' ∧ c ≠ '=' ∧ Double.isSpace c = false))

theorem plain_of_mem_encode {token : List Char} {c : Char} (h : c ∈ encodeURIComponent token) :
    Plain c := by
  have hall : ∀ n < 128, unreserved (Char.ofNat n) = true → Plain (Char.ofNat n) := by decide +kernel
  rcases mem_encodeURIComponent h with hplain | rfl
  · have hc := hall c.toNat (toNat_lt_of_unreserved hplain)
    rw [Char.ofNat_toNat] at hc
    exact hc hplain
  · decide

theorem plain_of_mem_name {c : Char} (h : c ∈ SESSION_COOKIE_NAME) : Plain c := by
  have hall : SESSION_COOKIE_NAME.all (fun c => Plain c) = true := by decide
  exact of_decide_eq_true (List.all_eq_true.mp hall c h)

theorem semicolon_notMem_pair (token : List Char) :
    ';' ∉ SESSION_COOKIE_NAME ++ '=' :: encodeURIComponent token := by
  intro h
  rcases List.mem_append.mp h with hname | hrest
  · exact (plain_of_mem_name hname).1 rfl
  · rcases List.mem_cons.mp hrest with heq | hvalue
    · exact absurd heq (by decide)
    · exact (plain_of_mem_encode hvalue).1 rfl

/-- The attributes come after the first `;`. -/
theorem sentPair_serializeSessionCookie (token : List Char) (secure : Bool) :
    sentPair (serializeSessionCookie token secure) =
      SESSION_COOKIE_NAME ++ '=' :: encodeURIComponent token := by
  have hpair : ∀ rest, sentPair (SESSION_COOKIE_NAME ++ '=' :: encodeURIComponent token ++ ';' :: rest) =
      SESSION_COOKIE_NAME ++ '=' :: encodeURIComponent token := by
    intro rest
    have hall : ∀ c ∈ SESSION_COOKIE_NAME ++ '=' :: encodeURIComponent token, (c ≠ ';' : Bool) = true := by
      intro c hc
      rw [decide_eq_true_eq]
      rintro rfl
      exact semicolon_notMem_pair token hc
    rw [sentPair, List.takeWhile_append_of_pos hall, List.takeWhile_cons_of_neg (by decide),
      List.append_nil]
  cases secure with
  | true => exact hpair _
  | false => exact hpair _

/-! ## Trimming -/

/-- A text without spaces is what is left when the spaces around it are cut off. -/
theorem trim_blank {left right text : List Char} (hleft : Blank left) (hright : Blank right)
    (htext : ∀ c ∈ text, Double.isSpace c = false) : Double.trim (left ++ text ++ right) = text := by
  have hfront : ∀ text' rest : List Char, (∀ c ∈ text', Double.isSpace c = false) → text' ≠ [] →
      (text' ++ rest).dropWhile Double.isSpace = text' ++ rest := by
    intro text' rest hall hne
    obtain ⟨c, text', rfl⟩ := List.exists_cons_of_ne_nil hne
    rw [List.cons_append, List.dropWhile_cons, hall c List.mem_cons_self, if_neg Bool.false_ne_true]
  have hreverse : ∀ c ∈ right.reverse, Double.isSpace c = true := fun c hc =>
    hright c (List.mem_reverse.mp hc)
  rw [Double.trim, List.append_assoc, List.dropWhile_append_of_pos hleft, List.rdropWhile]
  rcases eq_or_ne text [] with rfl | hne
  · have hall : right.dropWhile Double.isSpace = [] := List.dropWhile_eq_nil_iff.mpr hright
    rw [List.nil_append, hall]
    rfl
  · have hback := hfront text.reverse [] (fun c hc => htext c (List.mem_reverse.mp hc))
      (List.reverse_ne_nil_iff.mpr hne)
    rw [List.append_nil] at hback
    rw [hfront text right htext hne, List.reverse_append, List.dropWhile_append_of_pos hreverse, hback,
      List.reverse_reverse]

/-! ## The parts of a header -/

theorem idxOf?_append {l : List Char} (h : '=' ∉ l) (r : List Char) :
    (l ++ '=' :: r).idxOf? '=' = some l.length := by
  induction l with
  | nil => rfl
  | cons c l ih =>
    rw [List.mem_cons, not_or] at h
    have hc : (c == '=') = false := beq_false_of_ne (Ne.symm h.1)
    rw [List.cons_append, List.idxOf?_cons, hc, ih h.2]
    rfl

/-- A part with a name: what stands before the first `=`. -/
theorem parsePart_pair {name : List Char} (h : '=' ∉ name) (out : Cookies) (value : List Char) :
    parsePart out (name ++ '=' :: value) =
      if Double.trim name = [] then out
      else out.assign (Double.trim name)
        ((decodeURIComponent (Double.trim value)).getD (Double.trim value)) := by
  have htake : (name ++ '=' :: value).take name.length = name := List.take_left
  have hdrop : (name ++ '=' :: value).drop (name.length + 1) = value := by
    rw [← List.drop_drop, List.drop_left]
    rfl
  rw [parsePart, idxOf?_append h]
  dsimp only
  rw [htake, hdrop]
  cases decodeURIComponent (Double.trim value) <;> rfl

theorem parsePart_bare {part : List Char} (h : '=' ∉ part) (out : Cookies) : parsePart out part = out := by
  rw [parsePart, List.idxOf?_eq_none_iff.mpr h]

theorem get_assign_of_ne {out : Cookies} {key value x : List Char} (h : x ≠ key) :
    (out.assign key value).get x = out.get x := by
  unfold Cookies.assign
  split
  · rfl
  · rw [InsertionMap.get_set, if_neg h]

/-- Other segments leave the session cookie alone. -/
theorem get_parsePart_other {segment : List Char} (h : OtherSegment segment) (out : Cookies) :
    (parsePart out segment).get SESSION_COOKIE_NAME = out.get SESSION_COOKIE_NAME := by
  by_cases heq : '=' ∈ segment
  · have hname := h.2 heq
    obtain ⟨name, value, rfl, hfirst⟩ := List.eq_append_cons_of_mem heq
    have hall : ∀ c ∈ name, (c ≠ '=' : Bool) = true := by
      intro c hc
      rw [decide_eq_true_eq]
      rintro rfl
      exact hfirst hc
    rw [List.takeWhile_append_of_pos hall, List.takeWhile_cons_of_neg (by decide),
      List.append_nil] at hname
    rw [parsePart_pair hfirst]
    split
    · rfl
    · exact get_assign_of_ne (Ne.symm hname)
  · rw [parsePart_bare heq]

theorem get_foldl_other {segments : List (List Char)} (h : ∀ segment ∈ segments, OtherSegment segment)
    (out : Cookies) : (segments.foldl parsePart out).get SESSION_COOKIE_NAME =
      out.get SESSION_COOKIE_NAME := by
  induction segments generalizing out with
  | nil => rfl
  | cons segment segments ih =>
    rw [List.foldl_cons, ih fun s hs => h s (List.mem_cons_of_mem _ hs),
      get_parsePart_other (h segment List.mem_cons_self)]

/-- The session pair, with spaces around it, sets the session cookie to the token. -/
theorem get_parsePart_session {left right : List Char} (hleft : Blank left) (hright : Blank right)
    (token : List Char) (out : Cookies) :
    (parsePart out (left ++ (SESSION_COOKIE_NAME ++ '=' :: encodeURIComponent token) ++ right)).get
      SESSION_COOKIE_NAME = some token := by
  have hpart : left ++ (SESSION_COOKIE_NAME ++ '=' :: encodeURIComponent token) ++ right =
      (left ++ SESSION_COOKIE_NAME) ++ '=' :: (encodeURIComponent token ++ right) := by simp
  have hname : '=' ∉ left ++ SESSION_COOKIE_NAME := by
    intro h
    rcases List.mem_append.mp h with hblank | hname
    · exact absurd (hleft '=' hblank) (by decide)
    · exact (plain_of_mem_name hname).2.1 rfl
  have hkey : Double.trim (left ++ SESSION_COOKIE_NAME) = SESSION_COOKIE_NAME := by
    have htrim : Double.trim (left ++ SESSION_COOKIE_NAME ++ []) = SESSION_COOKIE_NAME :=
      trim_blank hleft (fun c hc => absurd hc List.not_mem_nil) fun c hc => (plain_of_mem_name hc).2.2
    rwa [List.append_nil] at htrim
  have hvalue : Double.trim ([] ++ encodeURIComponent token ++ right) = encodeURIComponent token :=
    trim_blank (fun c hc => absurd hc List.not_mem_nil) hright fun c hc => (plain_of_mem_encode hc).2.2
  rw [List.nil_append] at hvalue
  rw [hpart, parsePart_pair hname, hkey, hvalue, decode_encode, if_neg (by decide), Cookies.assign,
    if_neg (by decide), InsertionMap.get_set, if_pos rfl]
  rfl

/-! ## Headers -/

theorem parseCookies_text (h : CookieHeader) (token : List Char) :
    (parseCookies (some (h.text (SESSION_COOKIE_NAME ++ '=' :: encodeURIComponent token)))).get
      SESSION_COOKIE_NAME = some token := by
  generalize hpair : SESSION_COOKIE_NAME ++ '=' :: encodeURIComponent token = pair
  have hsegment : ∀ segment ∈ h.before ++ (h.left ++ pair ++ h.right) :: h.after, ';' ∉ segment := by
    intro segment hmem
    rcases List.mem_append.mp hmem with hbefore | hrest
    · exact (h.others segment (List.mem_append_left _ hbefore)).1
    · rcases List.mem_cons.mp hrest with rfl | hafter
      · rw [← hpair, List.mem_append, List.mem_append]
        rintro ((hleft | hmid) | hright)
        · exact absurd (h.blank.1 _ hleft) (by decide)
        · exact semicolon_notMem_pair token hmid
        · exact absurd (h.blank.2 _ hright) (by decide)
      · exact (h.others segment (List.mem_append_right _ hafter)).1
  have hsplit : (h.text pair).splitOn ';' = h.before ++ (h.left ++ pair ++ h.right) :: h.after :=
    List.splitOn_intercalate ';' hsegment (List.append_ne_nil_of_right_ne_nil _ (List.cons_ne_nil _ _))
  have hne : h.text pair ≠ [] := by
    intro hnil
    rw [hnil, List.splitOn_nil] at hsplit
    have hmem : h.left ++ pair ++ h.right ∈ [([] : List Char)] := by
      rw [hsplit]
      exact List.mem_append_right _ List.mem_cons_self
    rw [List.mem_singleton, ← hpair] at hmem
    simp at hmem
  have hparse : parseCookies (some (h.text pair)) = ((h.text pair).splitOn ';').foldl parsePart .empty := by
    cases htext : h.text pair with
    | nil => exact absurd htext hne
    | cons c text => rfl
  rw [hparse, hsplit, List.foldl_append, List.foldl_cons,
    get_foldl_other fun s hs => h.others s (List.mem_append_right _ hs), ← hpair,
    get_parsePart_session h.blank.1 h.blank.2]

/-- In a `Cookie` header that holds the session pair among other segments, the session cookie is the token
that was set, and the business is the one it was issued for until it expires. -/
theorem session_cookie_survives (mac : Hmac) (t₀ t : Time) (id : BusinessId) (secure : Bool)
    (h : CookieHeader) :
    let token := mac.createSessionToken t₀ id.text
    let header := h.text (sentPair (serializeSessionCookie token secure))
    (parseCookies (some header)).get SESSION_COOKIE_NAME = some token ∧
      (currentBusinessId mac t (some header) = some id.text ↔ t.ms ≤ t₀.ms + SESSION_TTL_MS) := by
  dsimp only
  rw [sentPair_serializeSessionCookie]
  have hcookie := parseCookies_text h (mac.createSessionToken t₀ id.text)
  refine ⟨hcookie, ?_⟩
  rw [currentBusinessId, hcookie]
  exact mac.verifySessionToken_createSessionToken t₀ t id

/-- Cookies on both sides of the session cookie, among them names that look like its own. -/
def busyHeader : CookieHeader where
  before := ["theme=dark".toList, " Scs_Session=old".toList]
  left := [' ']
  right := ['\t', ' ']
  after := [" __proto__ = scs_session=%E2".toList, [], " scs_session".toList]
  blank := by decide
  others := by decide

theorem busyHeader_survives :
    let token := newYearHmac.createSessionToken newYear biz123.text
    let header := busyHeader.text (sentPair (serializeSessionCookie token true))
    busyHeader.text ['*'] =
      "theme=dark; Scs_Session=old; *\t ; __proto__ = scs_session=%E2;; scs_session".toList ∧
    (parseCookies (some header)).get SESSION_COOKIE_NAME = some token ∧
      currentBusinessId newYearHmac thatDay (some header) = some biz123.text :=
  have hsurvives := session_cookie_survives newYearHmac newYear thatDay biz123 true busyHeader
  ⟨by decide, hsurvives.1, hsurvives.2.mpr (by decide)⟩

end SupplyChain
