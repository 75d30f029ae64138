import BlackPearl.Library.Text
import BlackPearl.Library.Words

/-!
# Details of provider errors

`sanitizeDetail` of `internal/gateway/torbox/gateway.go`, which a detail that the provider sends goes
through before it becomes part of an error. The detail is a decoded JSON text, and it may have the
token of the gateway anywhere. It is cut before the token is replaced, so a token across the cut leaves
its first part (`sanitizeDetail_cut`). Where every token that begins before the cut ends before it, has
no control character and is the first occurrence from its place on, nothing but the length of the token
has an effect (`sanitizeDetail_hides`).
-/

set_option autoImplicit false

namespace BlackPearl.Torbox

open BlackPearl.Library

/-! ## The function -/

/-- The check that `New` makes of its token. -/
def validateToken (token : String) : Checked Unit :=
  require (¬ (trimSpace token = "" ∨ trimSpace token ≠ token))
    "TorBox API token is required without surrounding whitespace"

/-- The bytes after which `sanitizeDetail` stops. -/
def maximumDetailBytes : ℕ := 256

/-- The first loop of `sanitizeDetail`, when so many bytes have been written: without control
characters, up to the character that reaches the limit. -/
def keepDetail (written : ℕ) : List Char → List Char
  | [] => []
  | character :: rest =>
      if isControl character then keepDetail written rest
      else if maximumDetailBytes ≤ written + character.utf8Size then [character]
      else character :: keepDetail (written + character.utf8Size) rest

/-- What `sanitizeDetail` makes of a word. -/
def redactWord (word : List Char) : List Char :=
  if containsText "https://".toList word || containsText "http://".toList word then
    "[redacted-url]".toList
  else word

/-- The words of a detail, joined again. -/
def joinDetail (result : List Char) : List Char :=
  joinWords ' ' ((fields isSpace result).map redactWord)

/-- The part of `sanitizeDetail` after the replacement of the token. -/
def finishDetail (result : List Char) : String :=
  if trimBy isSpace (joinDetail result) = [] then "request failed"
  else String.ofList (joinDetail result)

/-- `sanitizeDetail`. -/
def sanitizeDetail (token value : String) : String :=
  finishDetail (replaceAll token.toList "[redacted]".toList (keepDetail 0 value.toList))

/-! ## Templates -/

/-- A detail with places for the token. -/
abbrev Template := List (Option Char)

/-- The detail with a token at its places. -/
def fill (token : List Char) : Template → List Char
  | [] => []
  | none :: rest => token ++ fill token rest
  | some character :: rest => character :: fill token rest

/-- The characters of a template. -/
def Template.rest (template : Template) : List Char := template.reduceOption

/-- The bytes of a text. -/
def bytesOf (cs : List Char) : ℕ := (cs.map Char.utf8Size).sum

/-- The bytes that are written of a text without a limit. -/
def keptBytes (cs : List Char) : ℕ := bytesOf (cs.filter fun c => !isControl c)

/-- The part of a template before the cut, for a token of so many bytes. -/
def visible (size written : ℕ) : Template → Template
  | [] => []
  | none :: rest =>
      none :: (if maximumDetailBytes ≤ written + size then [] else visible size (written + size) rest)
  | some character :: rest =>
      if isControl character then visible size written rest
      else some character :: (if maximumDetailBytes ≤ written + character.utf8Size then []
        else visible size (written + character.utf8Size) rest)

/-- When so many bytes have been written: each token that begins before the cut has no control
character and ends before the cut, and none begins at a character of the template. -/
structure RedactableFrom (written : ℕ) (token : List Char) (template : Template) : Prop where
  whole : ∀ before after, template = before ++ none :: after →
    written + keptBytes (fill token before) < maximumDetailBytes →
      token.any isControl = false ∧
        written + keptBytes (fill token before) + bytesOf token.dropLast < maximumDetailBytes
  apart : ∀ before character after, template = before ++ some character :: after →
    isControl character = false → written + keptBytes (fill token before) < maximumDetailBytes →
      token.isPrefixOf (keepDetail (written + keptBytes (fill token before))
        (fill token (some character :: after))) = false

/-- The same for a detail from its start on. -/
def Redactable (token : String) (template : Template) : Prop :=
  RedactableFrom 0 token.toList template

/-! ## What is kept -/

@[simp] theorem keptBytes_nil : keptBytes [] = 0 := rfl

theorem keptBytes_append (cs ds : List Char) : keptBytes (cs ++ ds) = keptBytes cs + keptBytes ds := by
  simp [keptBytes, bytesOf]

theorem keptBytes_of_clean {cs : List Char} (h : ∀ c ∈ cs, isControl c = false) :
    keptBytes cs = bytesOf cs := by
  rw [keptBytes, List.filter_eq_self.2 fun c hc => by rw [h c hc]; rfl]

theorem keptBytes_cons (c : Char) (cs : List Char) :
    keptBytes (c :: cs) = (if isControl c then 0 else c.utf8Size) + keptBytes cs := by
  unfold keptBytes bytesOf
  cases hc : isControl c <;> simp [hc]

/-- A text without control characters that reaches the limit with its last character, if at all, is
kept, and then what follows it if there is room. -/
theorem keepDetail_append {cs : List Char} (hne : cs ≠ []) (hclean : ∀ c ∈ cs, isControl c = false)
    (after : List Char) : ∀ {written : ℕ}, written + bytesOf cs.dropLast < maximumDetailBytes →
    keepDetail written (cs ++ after) = cs ++
      (if maximumDetailBytes ≤ written + bytesOf cs then [] else keepDetail (written + bytesOf cs) after) := by
  induction cs with
  | nil => exact absurd rfl hne
  | cons c cs ih =>
    intro written hroom
    have hc : isControl c = false := hclean c List.mem_cons_self
    cases cs with
    | nil =>
      have hbytes : bytesOf [c] = c.utf8Size := by simp [bytesOf]
      rw [List.cons_append, List.nil_append, keepDetail, hc, if_neg Bool.false_ne_true, hbytes,
        List.singleton_append]
      split <;> rfl
    | cons d ds =>
      have hfirst : bytesOf (c :: d :: ds).dropLast = c.utf8Size + bytesOf (d :: ds).dropLast := by
        rw [List.dropLast_cons_cons, bytesOf, List.map_cons, List.sum_cons]
        rfl
      have hall : bytesOf (c :: d :: ds) = c.utf8Size + bytesOf (d :: ds) := by
        rw [bytesOf, List.map_cons, List.sum_cons]
        rfl
      rw [hfirst] at hroom
      have hmore : ¬ maximumDetailBytes ≤ written + c.utf8Size := by omega
      have hroom' : written + c.utf8Size + bytesOf (d :: ds).dropLast < maximumDetailBytes := by omega
      have hrest := ih (List.cons_ne_nil d ds) (fun x hx => hclean x (List.mem_cons_of_mem c hx)) hroom'
      rw [List.cons_append, keepDetail, hc, if_neg Bool.false_ne_true, if_neg hmore, hrest, hall,
        Nat.add_assoc]
      rfl

variable {token : List Char} {template : Template} {written : ℕ}

theorem fill_cons (token : List Char) (x : Option Char) (template : Template) :
    fill token (x :: template) = fill token [x] ++ fill token template := by
  cases x <;> simp [fill]

/-- The condition after one more place or character. -/
theorem RedactableFrom.tail {x : Option Char} (h : RedactableFrom written token (x :: template)) :
    RedactableFrom (written + keptBytes (fill token [x])) token template := by
  have hsum : ∀ before, written + keptBytes (fill token (x :: before)) =
      written + keptBytes (fill token [x]) + keptBytes (fill token before) := by
    intro before
    rw [fill_cons, keptBytes_append, Nat.add_assoc]
  constructor
  · intro before after heq hvisible
    have hwhole := h.whole (x :: before) after (by rw [heq, List.cons_append])
    rw [hsum] at hwhole
    exact hwhole hvisible
  · intro before character after heq hcontrol hvisible
    have hapart := h.apart (x :: before) character after (by rw [heq, List.cons_append]) hcontrol
    rw [hsum] at hapart
    exact hapart hvisible

/-- The condition at the first place or character of a template. -/
def RedactableHead (written : ℕ) (token : List Char) (template : Template) : Option Char → Prop
  | none => written < maximumDetailBytes →
      token.any isControl = false ∧ written + bytesOf token.dropLast < maximumDetailBytes
  | some character => isControl character = false → written < maximumDetailBytes →
      token.isPrefixOf (keepDetail written (character :: fill token template)) = false

instance (written : ℕ) (token : List Char) (template : Template) (x : Option Char) :
    Decidable (RedactableHead written token template x) :=
  match x with
  | none => inferInstanceAs (Decidable (written < maximumDetailBytes → _ ∧ _))
  | some _ => inferInstanceAs (Decidable (_ → _ → _ = false))

theorem redactableFrom_nil : RedactableFrom written token [] := by
  constructor
  · intro before after heq
    exact absurd heq (List.append_ne_nil_of_right_ne_nil before (List.cons_ne_nil _ _)).symm
  · intro before character after heq
    exact absurd heq (List.append_ne_nil_of_right_ne_nil before (List.cons_ne_nil _ _)).symm

/-- The condition can be checked from left to right. -/
theorem redactableFrom_cons {x : Option Char} : RedactableFrom written token (x :: template) ↔
    RedactableHead written token template x ∧
      RedactableFrom (written + keptBytes (fill token [x])) token template := by
  constructor
  · intro h
    refine ⟨?_, h.tail⟩
    cases x with
    | none => exact h.whole [] template rfl
    | some character => exact h.apart [] character template rfl
  · rintro ⟨hhead, htail⟩
    have hsum : ∀ before, written + keptBytes (fill token (x :: before)) =
        written + keptBytes (fill token [x]) + keptBytes (fill token before) := by
      intro before
      rw [fill_cons, keptBytes_append, Nat.add_assoc]
    constructor
    · intro before after heq
      cases before with
      | nil =>
        obtain ⟨rfl, rfl⟩ := List.cons.inj heq
        exact hhead
      | cons y before =>
        obtain ⟨rfl, rfl⟩ := List.cons.inj heq
        rw [hsum]
        exact htail.whole before after rfl
    · intro before character after heq
      cases before with
      | nil =>
        obtain ⟨rfl, rfl⟩ := List.cons.inj heq
        exact hhead
      | cons y before =>
        obtain ⟨rfl, rfl⟩ := List.cons.inj heq
        rw [hsum]
        exact htail.apart before character after rfl

instance decidableRedactableFrom (token : List Char) : ∀ (written : ℕ) (template : Template),
    Decidable (RedactableFrom written token template)
  | _, [] => isTrue redactableFrom_nil
  | written, x :: template =>
      have := decidableRedactableFrom token (written + keptBytes (fill token [x])) template
      decidable_of_iff _ redactableFrom_cons.symm

instance (token : String) (template : Template) : Decidable (Redactable token template) :=
  inferInstanceAs (Decidable (RedactableFrom 0 token.toList template))

/-- The tokens are replaced where they are, and nothing else is. -/
theorem replaceAll_keepDetail (hne : token ≠ []) (new : List Char) :
    ∀ {template : Template} {written : ℕ}, RedactableFrom written token template →
      written < maximumDetailBytes →
      replaceAll token new (keepDetail written (fill token template)) =
        fill new (visible (bytesOf token) written template)
  | [], _, _, _ => rfl
  | none :: template, written, h, hroom => by
    obtain ⟨hclean, hends⟩ := h.whole [] template rfl hroom
    have hclean' : ∀ c ∈ token, isControl c = false := fun c hc => by
      rw [← Bool.not_eq_true]
      exact List.any_eq_false.1 hclean c hc
    have hends' : written + bytesOf token.dropLast < maximumDetailBytes := hends
    have htail := h.tail
    have hbytes : keptBytes (fill token [none]) = bytesOf token := by
      rw [fill, fill, List.append_nil, keptBytes_of_clean hclean']
    rw [hbytes] at htail
    rw [fill, keepDetail_append hne hclean' (fill token template) hends', replaceAll_append hne, visible,
      fill]
    split
    · rfl
    · next hmore => rw [replaceAll_keepDetail hne new htail (Nat.lt_of_not_le hmore)]
  | some character :: template, written, h, hroom => by
    have htail := h.tail
    have hbytes : keptBytes (fill token [some character]) =
        if isControl character then 0 else character.utf8Size := by
      rw [fill, fill, keptBytes_cons, keptBytes_nil, Nat.add_zero]
    rw [hbytes] at htail
    cases hcontrol : isControl character with
    | true =>
      rw [hcontrol, if_pos rfl, Nat.add_zero] at htail
      rw [fill, keepDetail, hcontrol, if_pos rfl, visible, hcontrol, if_pos rfl]
      exact replaceAll_keepDetail hne new htail hroom
    | false =>
      rw [hcontrol, if_neg Bool.false_ne_true] at htail
      have hapart := h.apart [] character template rfl hcontrol hroom
      rw [← Bool.not_eq_true, List.isPrefixOf_iff_prefix] at hapart
      rw [fill, fill, keptBytes_nil, Nat.add_zero, keepDetail, hcontrol, if_neg Bool.false_ne_true]
        at hapart
      rw [fill, keepDetail, hcontrol, if_neg Bool.false_ne_true, visible, hcontrol,
        if_neg Bool.false_ne_true, fill]
      split
      · next hlast =>
        rw [if_pos hlast] at hapart
        rw [replaceAll_cons hapart]
        rfl
      · next hmore =>
        rw [if_neg hmore] at hapart
        rw [replaceAll_cons hapart, replaceAll_keepDetail hne new htail (Nat.lt_of_not_le hmore)]

/-! ## What the detail tells about the token -/

theorem sanitizeDetail_ofList (token : String) (cs : List Char) :
    sanitizeDetail token (String.ofList cs) =
      finishDetail (replaceAll token.toList "[redacted]".toList (keepDetail 0 cs)) := by
  have hdetail : (String.ofList cs).toList = cs := String.toList_ofList
  rw [sanitizeDetail, hdetail]

/-- The output for a token that is replaced at its places: it depends on the length of the token. -/
theorem sanitizeDetail_fill {token : String} (hne : token ≠ "") (h : Redactable token template) :
    sanitizeDetail token (String.ofList (fill token.toList template)) =
      finishDetail (fill "[redacted]".toList (visible (byteLength token) 0 template)) := by
  have hne' : token.toList ≠ [] := fun hnil => hne (String.toList_inj.1 hnil)
  rw [sanitizeDetail_ofList, replaceAll_keepDetail hne' _ h (by decide)]
  rfl

/-- Two accepted tokens of the same length cannot be told apart, where each is replaced. -/
theorem sanitizeDetail_hides {token token' : String} (haccepted : validateToken token = .ok ())
    (haccepted' : validateToken token' = .ok ()) (hlength : byteLength token = byteLength token')
    (h : Redactable token template) (h' : Redactable token' template) :
    sanitizeDetail token (String.ofList (fill token.toList template)) =
      sanitizeDetail token' (String.ofList (fill token'.toList template)) := by
  have hne : ∀ {token : String}, validateToken token = .ok () → token ≠ "" := by
    rintro token haccepted rfl
    exact require_eq_ok.1 haccepted (Or.inl rfl)
  rw [sanitizeDetail_fill (hne haccepted) h, sanitizeDetail_fill (hne haccepted') h', hlength]

/-- A detail that quotes the token. -/
def deniedTemplate : Template := "denied ".toList.map some ++ [none]

theorem sanitizeDetail_denied : byteLength "first-token" = byteLength "other-token" ∧
    sanitizeDetail "first-token" (String.ofList (fill "first-token".toList deniedTemplate)) =
      sanitizeDetail "other-token" (String.ofList (fill "other-token".toList deniedTemplate)) :=
  ⟨by decide, sanitizeDetail_hides (by decide) (by decide) (by decide) (by decide +kernel)
    (by decide +kernel)⟩

/-- The cut falls after the first four characters of a token. -/
theorem sanitizeDetail_cut : ¬ ∀ (template : Template) (token token' : String),
    validateToken token = .ok () → validateToken token' = .ok () →
    byteLength token = byteLength token' → containsText token.toList template.rest = false →
    containsText token'.toList template.rest = false →
      sanitizeDetail token (String.ofList (fill token.toList template)) =
        sanitizeDetail token' (String.ofList (fill token'.toList template)) := by
  intro h
  have hsame := h (List.replicate 63 (some '𝄞') ++ [none]) "first-token" "other-token" (by decide)
    (by decide) (by decide) (by decide +kernel) (by decide +kernel)
  rw [sanitizeDetail_ofList, sanitizeDetail_ofList, finishDetail, if_neg (by decide +kernel),
    finishDetail, if_neg (by decide +kernel)] at hsame
  exact absurd (String.ofList_injective hsame) (by decide +kernel)

end BlackPearl.Torbox
