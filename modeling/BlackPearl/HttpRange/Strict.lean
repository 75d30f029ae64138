import BlackPearl.HttpRange.Response

/-!
# Strict reads

What a read of a range may come to (`StrictRead`): it is refused before anything is copied, there is
nothing to read, or it copies the whole body of a response that is exactly the range wanted
(`Complete`). The checks that a source makes of a response accept it exactly if it is
(`completeBody_eq_ok`), so the sources accept the same responses.
-/

set_option autoImplicit false

namespace BlackPearl.HttpRange

open BlackPearl.Library

/-! ## Content-Range -/

/-- The header names the bytes from `first` to `last` of an object of this size. -/
def NamesRange (value : String) (first last size : ℤ) : Prop :=
  ∃ a b c : List Char, (a ≠ [] ∧ b ≠ [] ∧ c ≠ []) ∧ (∀ d ∈ a ++ b ++ c, d.isDigit = true) ∧
    value.toList = "bytes ".toList ++ (a ++ '-' :: (b ++ '/' :: c)) ∧
    (decimalValue a : ℤ) = first ∧ (decimalValue b : ℤ) = last ∧ (decimalValue c : ℤ) = size

theorem digitsUntil_eq_some {separator : Char} {text digits rest : List Char}
    (h : digitsUntil separator text = some (digits, rest)) :
    digits ≠ [] ∧ (∀ d ∈ digits, d.isDigit = true) ∧ text = digits ++ separator :: rest := by
  unfold digitsUntil at h
  have hsplit := List.takeWhile_append_dropWhile (p := Char.isDigit) (l := text)
  cases htake : text.takeWhile Char.isDigit with
  | nil =>
    rw [htake] at h
    cases h
  | cons d digits' =>
    cases hdrop : text.dropWhile Char.isDigit with
    | nil =>
      rw [htake, hdrop] at h
      cases h
    | cons c rest' =>
      rw [htake, hdrop] at h hsplit
      dsimp only at h
      split at h
      · next hseparator =>
        cases h
        refine ⟨List.cons_ne_nil _ _, ?_, ?_⟩
        · rw [← htake]
          exact fun d hd => List.mem_takeWhile_imp hd
        · rw [← hseparator, hsplit]
      · cases h

theorem digitsUntil_append {separator : Char} {digits : List Char} (rest : List Char)
    (hne : digits ≠ []) (hdigits : ∀ d ∈ digits, d.isDigit = true)
    (hseparator : separator.isDigit = false) :
    digitsUntil separator (digits ++ separator :: rest) = some (digits, rest) := by
  have htake : (digits ++ separator :: rest).takeWhile Char.isDigit = digits := by
    rw [List.takeWhile_append_of_pos hdigits, List.takeWhile_cons_of_neg (by simp [hseparator]),
      List.append_nil]
  have hdrop : (digits ++ separator :: rest).dropWhile Char.isDigit = separator :: rest := by
    rw [List.dropWhile_append_of_pos hdigits, List.dropWhile_cons_of_neg (by simp [hseparator])]
  unfold digitsUntil
  rw [htake, hdrop]
  cases digits with
  | nil => exact absurd rfl hne
  | cons d digits => exact if_pos rfl

theorem contentRangeMatch_eq_some {value : String} {a b c : List Char} :
    contentRangeMatch value = some (a, b, c) ↔ (a ≠ [] ∧ b ≠ [] ∧ c ≠ []) ∧
      (∀ d ∈ a ++ b ++ c, d.isDigit = true) ∧
      value.toList = "bytes ".toList ++ (a ++ '-' :: (b ++ '/' :: c)) := by
  unfold contentRangeMatch
  constructor
  · intro h
    split at h
    · next hprefix =>
      simp only [Option.bind_eq_bind, Option.bind_eq_some_iff] at h
      obtain ⟨⟨first, rest⟩, hfirst, ⟨last, size⟩, hlast, h⟩ := h
      dsimp only at hlast h
      split at h
      · next hsize =>
        cases h
        obtain ⟨hne, hdigits, htext⟩ := digitsUntil_eq_some hfirst
        obtain ⟨hne', hdigits', htext'⟩ := digitsUntil_eq_some hlast
        refine ⟨⟨hne, hne', hsize.1⟩, ?_, ?_⟩
        · intro d hd
          simp only [List.mem_append] at hd
          rcases hd with (hd | hd) | hd
          · exact hdigits d hd
          · exact hdigits' d hd
          · exact List.all_eq_true.1 hsize.2 d hd
        · obtain ⟨more, hmore⟩ := List.isPrefixOf_iff_prefix.1 hprefix
          have hlength : "bytes ".toList.length = 6 := by decide
          rw [← hmore, ← hlength, List.drop_left] at htext
          rw [← hmore, htext, htext']
      · cases h
    · cases h
  · rintro ⟨⟨hne, hne', hne''⟩, hdigits, htext⟩
    have hprefix : "bytes ".toList.isPrefixOf value.toList = true := by
      rw [List.isPrefixOf_iff_prefix, htext]
      exact List.prefix_append _ _
    have hdrop : value.toList.drop 6 = a ++ '-' :: (b ++ '/' :: c) := by
      have hlength : "bytes ".toList.length = 6 := by decide
      rw [htext, ← hlength, List.drop_left]
    have hfirst : digitsUntil '-' (a ++ '-' :: (b ++ '/' :: c)) = some (a, b ++ '/' :: c) :=
      digitsUntil_append _ hne (fun d hd => hdigits d (by simp [hd])) (by decide)
    have hlast : digitsUntil '/' (b ++ '/' :: c) = some (b, c) :=
      digitsUntil_append _ hne' (fun d hd => hdigits d (by simp [hd])) (by decide)
    have hsize : c.all Char.isDigit = true :=
      List.all_eq_true.2 fun d hd => hdigits d (by simp [hd])
    rw [if_pos hprefix, hdrop]
    simp only [Option.bind_eq_bind, hfirst, hlast, Option.bind_some]
    exact if_pos ⟨hne'', hsize⟩

theorem parseInt_eq_ok {raw : List Char} {value : ℤ} :
    parseInt raw = .ok value ↔ (decimalValue raw : ℤ) = value ∧ value < 2 ^ 63 := by
  unfold parseInt
  split
  · next hless =>
    rw [Except.ok.injEq]
    constructor
    · rintro rfl
      exact ⟨rfl, by exact_mod_cast hless⟩
    · exact fun h => h.1
  · next hless =>
    constructor
    · intro h
      cases h
    · rintro ⟨rfl, hvalue⟩
      exact absurd (by exact_mod_cast hvalue) hless

/-- The check accepts exactly the header of the range. -/
theorem checkContentRange_eq_ok {texts : ContentRangeTexts} {value : String} {first last size : ℤ}
    (hfirst : first < 2 ^ 63) (hlast : last < 2 ^ 63) (hsize : size < 2 ^ 63) :
    checkContentRange texts value first last size = .ok () ↔ NamesRange value first last size := by
  unfold checkContentRange
  constructor
  · intro h
    split at h
    · cases h
    · next a b c hmatch =>
      split at h
      · cases h
      · cases h
      · cases h
      · next start stop length hstart hstop hlength =>
        split at h
        · cases h
        · next hsame =>
          simp only [not_or, not_not] at hsame
          obtain ⟨rfl, rfl, rfl⟩ := hsame
          obtain ⟨hne, hdigits, htext⟩ := contentRangeMatch_eq_some.1 hmatch
          exact ⟨a, b, c, hne, hdigits, htext, (parseInt_eq_ok.1 hstart).1, (parseInt_eq_ok.1 hstop).1,
            (parseInt_eq_ok.1 hlength).1⟩
  · rintro ⟨a, b, c, hne, hdigits, htext, ha, hb, hc⟩
    have hmatch := contentRangeMatch_eq_some.2 ⟨hne, hdigits, htext⟩
    simp only [hmatch, parseInt_eq_ok.2 ⟨ha, hfirst⟩, parseInt_eq_ok.2 ⟨hb, hlast⟩,
      parseInt_eq_ok.2 ⟨hc, hsize⟩]
    exact if_neg (by simp)

/-! ## Bodies -/

/-- The body ends where its bytes do. -/
def Body.Ended (body : Body) : Prop := ∀ e ∈ body.failure, e = .eof

/-- Reading one byte more than wanted gives as many as wanted exactly if this is the whole body. -/
theorem readLimited_eq_ok {body : Body} {wanted : ℕ} {data : List UInt8} (hlength : data.length = wanted) :
    body.readLimited (wanted + 1) = .ok data ↔ body.bytes = data ∧ body.Ended := by
  unfold Body.readLimited Body.Ended
  constructor
  · intro h
    split at h
    · next hlong =>
      -- a longer body gives more bytes than wanted
      have htaken := congrArg List.length (Except.ok.inj h)
      rw [List.length_take, min_eq_left hlong] at htaken
      omega
    · split at h
      · next e he =>
        split at h
        · next heof =>
          refine ⟨Except.ok.inj h, fun e' he' => ?_⟩
          rw [he] at he'
          rw [← Option.some.inj he', heof]
        · cases h
      · next hnone =>
        refine ⟨Except.ok.inj h, fun e' he' => ?_⟩
        rw [hnone] at he'
        cases he'
  · rintro ⟨rfl, hended⟩
    rw [if_neg (by omega)]
    split
    · next e he => rw [if_pos (hended e he)]
    · rfl

/-- A response whose whole body is the range wanted. -/
structure Complete (size offset wanted : ℤ) (validator : Response → Prop) (response : Response)
    (data : List UInt8) : Prop where
  status : response.statusCode = 206
  range : NamesRange (response.header "Content-Range") offset (offset + wanted - 1) size
  validator : validator response
  body : response.body.bytes = data
  ended : response.body.Ended
  length : (data.length : ℤ) = wanted

/-- A range within an object whose size is an `int64`. -/
structure Within (size offset wanted : ℤ) : Prop where
  bounded : size < 2 ^ 63
  low : 0 ≤ offset
  positive : 0 < wanted
  last : offset + wanted ≤ size

theorem completeBody_eq_ok {texts : SourceTexts} {size offset wanted : ℤ}
    {validate : Response → Except Failure Unit} {validator : Response → Prop} {response : Response}
    {data : List UInt8} (hwithin : Within size offset wanted)
    (hvalidate : validate response = .ok () ↔ validator response) :
    completeBody texts size validate response offset wanted = .ok data ↔
      Complete size offset wanted validator response data := by
  obtain ⟨hbounded, hoffset, hwanted, hlast⟩ := hwithin
  have hrange : checkContentRange texts.contentRange (response.header "Content-Range") offset
      (offset + wanted - 1) size = .ok () ↔
      NamesRange (response.header "Content-Range") offset (offset + wanted - 1) size :=
    checkContentRange_eq_ok (by omega) (by omega) hbounded
  obtain ⟨n, rfl⟩ := Int.eq_ofNat_of_zero_le hwanted.le
  have hlimit : ((n : ℤ) + 1).toNat = n + 1 := by omega
  unfold completeBody
  rw [hlimit]
  constructor
  · intro h
    split at h
    · cases h
    · next hstatus =>
      simp only [bind_eq_ok] at h
      obtain ⟨_, hheader, _, hvalidated, h⟩ := h
      split at h
      · cases h
      · next body hbody =>
        split at h
        · cases h
        · next hlength =>
          obtain rfl := Except.ok.inj h
          rw [not_not, Nat.cast_inj] at hlength
          obtain ⟨hbytes, hended⟩ := (readLimited_eq_ok hlength).1 hbody
          exact ⟨not_not.1 hstatus, hrange.1 hheader, hvalidate.1 hvalidated, hbytes, hended,
            by rw [hlength]⟩
  · rintro ⟨hstatus, hheader, hvalidated, hbytes, hended, hlength⟩
    have hbody := (readLimited_eq_ok (Nat.cast_inj.1 hlength)).2 ⟨hbytes, hended⟩
    have hstatus206 : ¬ response.statusCode ≠ statusPartialContent := not_not.2 hstatus
    rw [if_neg hstatus206]
    simp only [bind_eq_ok]
    refine ⟨(), hrange.2 hheader, (), hvalidate.2 hvalidated, ?_⟩
    simp only [hbody]
    exact if_neg (not_not.2 hlength)

/-- The texts of a source are none of them the end of the file. -/
structure SourceTexts.Proper (texts : SourceTexts) : Prop where
  closed : texts.closed ≠ .eof
  negative : texts.negative ≠ .eof
  status : ∀ status, texts.status status ≠ .eof
  invalid : ∀ value, texts.contentRange.invalid value ≠ .eof
  unparsed : ∀ value e, texts.contentRange.unparsed value e ≠ .eof
  mismatch : ∀ got want, texts.contentRange.mismatch got want ≠ .eof
  unread : ∀ e, texts.unread e ≠ .eof
  length : ∀ got want, texts.length got want ≠ .eof

theorem checkContentRange_ne_eof {texts : SourceTexts} {value : String} {first last size : ℤ}
    {e : Failure} (hproper : texts.Proper)
    (h : checkContentRange texts.contentRange value first last size = .error e) : e ≠ .eof := by
  unfold checkContentRange at h
  split at h
  · cases h
    exact hproper.invalid _
  · split at h
    · cases h
      exact hproper.unparsed _ _
    · cases h
      exact hproper.unparsed _ _
    · cases h
      exact hproper.unparsed _ _
    · split at h
      · cases h
        exact hproper.mismatch _ _
      · cases h

/-- The checks of a response never end with the end of the file. -/
theorem completeBody_ne_eof {texts : SourceTexts} {size offset wanted : ℤ}
    {validate : Response → Except Failure Unit} {response : Response} {e : Failure}
    (hproper : texts.Proper) (hvalidate : ∀ e, validate response = .error e → e ≠ .eof)
    (h : completeBody texts size validate response offset wanted = .error e) : e ≠ .eof := by
  unfold completeBody at h
  split at h
  · cases h
    exact hproper.status _
  · simp only [bind_eq_error] at h
    rcases h with hrange | ⟨_, _, hvalidated | ⟨_, _, h⟩⟩
    · exact checkContentRange_ne_eof hproper hrange
    · exact hvalidate _ hvalidated
    · split at h
      · cases h
        exact hproper.unread _
      · split at h
        · cases h
          exact hproper.length _ _
        · cases h

/-! ## Answers -/

/-- The validator header of a response is the one that was kept: the `ETag`, or without one the
`Last-Modified`. -/
def ValidatorUnchanged (etag lastModified : String) (response : Response) : Prop :=
  if etag ≠ "" then response.header "ETag" = etag else response.header "Last-Modified" = lastModified

/-- The client sends the request and has this response. -/
def Client.Sends (client : Client) (request : RangeRequest) (response : Response) : Prop :=
  client.newRequest request.url = none ∧ client.send request = .ok response

/-- What `ReadAt` asks for after its checks. -/
structure Wanted (size : ℤ) (destination : List UInt8) (offset wanted : ℤ) (clipped : Bool) : Prop where
  nonempty : destination ≠ []
  low : 0 ≤ offset
  less : offset < size
  count : wanted = min (destination.length : ℤ) (size - offset)
  clipped_iff : clipped = true ↔ size - offset < destination.length

/-- The part of the destination that the object fills. -/
theorem Wanted.short {size : ℤ} {destination : List UInt8} {offset : ℤ} (hempty : ¬ destination.length = 0)
    (hlow : ¬ offset < 0) (hless : ¬ size ≤ offset) (hshort : size - offset < destination.length) :
    Wanted size destination offset (size - offset) true where
  nonempty hnil := hempty (by rw [hnil]; rfl)
  low := not_lt.1 hlow
  less := not_le.1 hless
  count := (min_eq_right hshort.le).symm
  clipped_iff := by simp [hshort]

/-- The whole destination. -/
theorem Wanted.whole {size : ℤ} {destination : List UInt8} {offset : ℤ} (hempty : ¬ destination.length = 0)
    (hlow : ¬ offset < 0) (hless : ¬ size ≤ offset) (hshort : ¬ size - offset < destination.length) :
    Wanted size destination offset destination.length false where
  nonempty hnil := hempty (by rw [hnil]; rfl)
  low := not_lt.1 hlow
  less := not_le.1 hless
  count := (min_eq_left (not_lt.1 hshort)).symm
  clipped_iff := by simp [hshort]

theorem Wanted.within {size : ℤ} {destination : List UInt8} {offset wanted : ℤ} {clipped : Bool}
    (h : Wanted size destination offset wanted clipped) (hbounded : size < 2 ^ 63) :
    Within size offset wanted := by
  have hpos := List.length_pos_iff.2 h.nonempty
  have hcount := h.count
  have hless := h.less
  exact ⟨hbounded, h.low, by omega, by omega⟩

/-- What a read returns next to the bytes it has copied: nothing when the destination is full, the end
of the file when it is not, and some error when the body does not close. -/
structure EndRight (size offset : ℤ) (length : ℕ) (closeError err : Option Failure) : Prop where
  full : closeError = none → length ≤ size - offset → err = none
  clipped : closeError = none → size - offset < length → ∃ e, err = some e ∧ e.is .eof = true
  unclosed : closeError ≠ none → err ≠ none

/-- The end of a read, whatever a source does with the error of a body that does not close. -/
theorem Wanted.endRight {size : ℤ} {destination : List UInt8} {offset wanted : ℤ} {clipped : Bool}
    {closeError err : Option Failure} (h : Wanted size destination offset wanted clipped)
    (hfull : closeError = none → clipped = false → err = none)
    (hclipped : closeError = none → clipped = true → ∃ e, err = some e ∧ e.is .eof = true)
    (hunclosed : closeError ≠ none → err ≠ none) :
    EndRight size offset destination.length closeError err where
  full hclose hle := hfull hclose (by
    rw [← Bool.not_eq_true, h.clipped_iff]
    exact not_lt.2 hle)
  clipped hclose hless := hclipped hclose (h.clipped_iff.2 hless)
  unclosed := hunclosed

/-- What a read with this response comes to: it copies the body of a complete one, and refuses any
other. -/
inductive Answers (size offset wanted : ℤ) (validator : Response → Prop) (destination : List UInt8)
    (response : Response) : ReadResult → Prop
  | copied {data : List UInt8} {err : Option Failure}
      (hcomplete : Complete size offset wanted validator response data)
      (hend : EndRight size offset destination.length response.body.closeError err) :
      Answers size offset wanted validator destination response
        ⟨data ++ destination.drop data.length, data.length, err⟩
  | refused {e : Failure} (hne : e ≠ .eof)
      (hincomplete : ∀ data, ¬ Complete size offset wanted validator response data) :
      Answers size offset wanted validator destination response (failed destination e)

/-- A source that refuses a response whenever its checks do, and else copies the body. -/
theorem Wanted.answers (texts : SourceTexts) (validate : Response → Except Failure Unit)
    {size offset wanted : ℤ} {clipped : Bool} {validator : Response → Prop} {destination : List UInt8} {response : Response} {result : ReadResult}
    (h : Wanted size destination offset wanted clipped) (hbounded : size < 2 ^ 63)
    (hvalidate : validate response = .ok () ↔ validator response)
    (hrefused : ∀ e, completeBody texts size validate response offset wanted = .error e →
      ∃ e', e' ≠ .eof ∧ result = failed destination e')
    (hcopied : ∀ body : List UInt8, (body.length : ℤ) = wanted →
      completeBody texts size validate response offset wanted = .ok body →
      ∃ err, result = ⟨body ++ destination.drop body.length, body.length, err⟩ ∧
        EndRight size offset destination.length response.body.closeError err) :
    Answers size offset wanted validator destination response result := by
  cases hbody : completeBody texts size validate response offset wanted with
  | error e =>
    obtain ⟨e', hne, rfl⟩ := hrefused e hbody
    refine .refused hne fun data hcomplete => ?_
    rw [(completeBody_eq_ok (h.within hbounded) hvalidate).2 hcomplete] at hbody
    cases hbody
  | ok body =>
    have hcomplete := (completeBody_eq_ok (h.within hbounded) hvalidate).1 hbody
    obtain ⟨err, rfl, hend⟩ := hcopied body hcomplete.length hbody
    exact .copied hcomplete hend

/-- The bytes of a body that is not longer than the destination. -/
theorem copyInto_of_length_le {destination source : List UInt8}
    (h : source.length ≤ destination.length) :
    copyInto destination source = (source ++ destination.drop source.length, source.length) := by
  rw [copyInto, List.take_of_length_le h, min_eq_right h]

/-! ## Reads -/

/-- What `ReadAt` may come to; `answered` are the responses that it can have for so many bytes. -/
inductive StrictRead (size : ℤ) (validator : Response → Prop) (answered : ℤ → Response → Prop)
    (destination : List UInt8) (offset : ℤ) : ReadResult → Prop
  | refused {e : Failure} (hne : e ≠ .eof) :
      StrictRead size validator answered destination offset (failed destination e)
  | empty (hempty : destination = []) (hlow : 0 ≤ offset) :
      StrictRead size validator answered destination offset ⟨destination, 0, none⟩
  | beyond (hne : destination ≠ []) (hoffset : size ≤ offset) :
      StrictRead size validator answered destination offset ⟨destination, 0, some .eof⟩
  | read {response : Response} {data : List UInt8} {err : Option Failure} (hne : destination ≠ [])
      (hlow : 0 ≤ offset) (hless : offset < size)
      (hcount : (data.length : ℤ) = min (destination.length : ℤ) (size - offset))
      (hanswered : answered data.length response)
      (hcomplete : Complete size offset data.length validator response data)
      (hend : EndRight size offset destination.length response.body.closeError err) :
      StrictRead size validator answered destination offset
        ⟨data ++ destination.drop data.length, data.length, err⟩

theorem Answers.strictRead {size offset wanted : ℤ} {clipped : Bool} {validator : Response → Prop}
    {answered : ℤ → Response → Prop} {destination : List UInt8} {response : Response}
    {result : ReadResult} (h : Answers size offset wanted validator destination response result)
    (hwanted : Wanted size destination offset wanted clipped) (hanswered : answered wanted response) :
    StrictRead size validator answered destination offset result := by
  cases h with
  | copied hcomplete hend =>
    have hlength := hcomplete.length
    refine .read hwanted.nonempty hwanted.low hwanted.less (hlength.trans hwanted.count) ?_ ?_ hend
    · rw [hlength]
      exact hanswered
    · rw [hlength]
      exact hcomplete
  | refused hne => exact .refused hne

/-- The checks before a request leave what is strict. -/
theorem readAvailable_strict {texts : SourceTexts} {closed : Bool} {size : ℤ} {ctx : ReadContext}
    {validator : Response → Prop} {answered : ℤ → Response → Prop} {destination : List UInt8}
    {offset : ℤ} {read : ℤ → Bool → ReadResult} (hclosed : texts.closed ≠ .eof)
    (hnegative : texts.negative ≠ .eof)
    (hread : ∀ wanted clipped, Wanted size destination offset wanted clipped →
      StrictRead size validator answered destination offset (read wanted clipped)) :
    StrictRead size validator answered destination offset
      (readAvailable texts closed size ctx destination offset read) := by
  unfold readAvailable
  split
  · exact .refused (ContextError.failure_ne_eof _)
  · split_ifs with hisClosed hisNegative hempty hbeyond hshort
    · exact .refused hclosed
    · exact .refused hnegative
    · exact .empty (List.length_eq_zero_iff.1 hempty) (not_lt.1 hisNegative)
    · exact .beyond (fun hnil => hempty (by rw [hnil]; rfl)) hbeyond
    · exact hread _ _ (.short hempty hisNegative hbeyond hshort)
    · exact hread _ _ (.whole hempty hisNegative hbeyond hshort)

/-- The read has come to the end of the file. -/
def ReadResult.atEnd (result : ReadResult) : Bool := result.err.any fun e => e.is .eof

/-- A failure that is not the end of the file, or all the bytes that there are for the destination. -/
def Exact (size : ℤ) (validator : Response → Prop) (answered : ℤ → Response → Prop)
    (destination : List UInt8) (offset : ℤ) (result : ReadResult) : Prop :=
  (result.count = 0 ∧ ∃ e, result.err = some e ∧ e ≠ .eof) ∨
    offset < size ∧ destination ≠ [] ∧
      (result.count : ℤ) = min (destination.length : ℤ) (size - offset) ∧
      (∃ response, answered result.count response ∧
        Complete size offset result.count validator response (result.destination.take result.count)) ∧
      (result.atEnd = true ↔ size - offset < destination.length)

/-- A strict read within the object is exact if the bodies close. -/
theorem StrictRead.exact {size : ℤ} {validator : Response → Prop} {answered : ℤ → Response → Prop}
    {destination : List UInt8} {offset : ℤ} {result : ReadResult}
    (h : StrictRead size validator answered destination offset result) (hne : destination ≠ [])
    (hless : offset < size)
    (hcloses : ∀ wanted response, answered wanted response → response.body.closeError = none) :
    Exact size validator answered destination offset result := by
  cases h with
  | refused hfailed => exact .inl ⟨rfl, _, rfl, hfailed⟩
  | empty hempty => exact absurd hempty hne
  | beyond _ hoffset => exact absurd hless (not_lt.2 hoffset)
  | read _ _ _ hcount hanswered hcomplete hend =>
    refine .inr ⟨hless, hne, hcount, ⟨_, hanswered, ?_⟩, ?_⟩
    · rw [List.take_left]
      exact hcomplete
    · rcases le_or_gt (destination.length : ℤ) (size - offset) with hle | hshort
      · rw [hend.full (hcloses _ _ hanswered) hle]
        exact iff_of_false Bool.false_ne_true (not_lt.2 hle)
      · obtain ⟨e, rfl, he⟩ := hend.clipped (hcloses _ _ hanswered) hshort
        exact iff_of_true he hshort

/-! ## Agreement -/

/-- Two reads that have copied the same bytes, and end alike if these are any. -/
structure Agree (result result' : ReadResult) : Prop where
  destination : result.destination = result'.destination
  count : result.count = result'.count
  err : result.err = none ↔ result'.err = none
  atEnd : 0 < result.count → result.atEnd = result'.atEnd

theorem EndRight.agree {size offset : ℤ} {length : ℕ} {err err' : Option Failure}
    {destination : List UInt8} {count : ℕ} (h : EndRight size offset length none err)
    (h' : EndRight size offset length none err') :
    Agree ⟨destination, count, err⟩ ⟨destination, count, err'⟩ := by
  rcases le_or_gt (length : ℤ) (size - offset) with hle | hless
  · obtain rfl := h.full rfl hle
    obtain rfl := h'.full rfl hle
    exact ⟨rfl, rfl, Iff.rfl, fun _ => rfl⟩
  · obtain ⟨e, rfl, he⟩ := h.clipped rfl hless
    obtain ⟨e', rfl, he'⟩ := h'.clipped rfl hless
    exact ⟨rfl, rfl, by simp, fun _ => he.trans he'.symm⟩

/-- Two sources agree on a response whose body closes, if their validators do. -/
theorem Answers.agree {size offset wanted : ℤ} {validator validator' : Response → Prop}
    {destination : List UInt8} {response : Response} {result result' : ReadResult}
    (h : Answers size offset wanted validator destination response result)
    (h' : Answers size offset wanted validator' destination response result')
    (hvalidator : validator response ↔ validator' response)
    (hcloses : response.body.closeError = none) : Agree result result' := by
  have hcomplete (data : List UInt8) : Complete size offset wanted validator response data ↔
      Complete size offset wanted validator' response data :=
    ⟨fun h => { h with validator := hvalidator.1 h.validator },
      fun h => { h with validator := hvalidator.2 h.validator }⟩
  cases h with
  | copied hdata hend =>
    rw [hcloses] at hend
    cases h' with
    | copied hdata' hend' =>
      rw [hcloses] at hend'
      obtain rfl := hdata.body
      obtain rfl := hdata'.body
      exact hend.agree hend'
    | refused _ hincomplete => exact absurd ((hcomplete _).1 hdata) (hincomplete _)
  | refused _ hincomplete =>
    cases h' with
    | copied hdata' _ => exact absurd ((hcomplete _).2 hdata') (hincomplete _)
    | refused _ _ => exact ⟨rfl, rfl, by simp [failed], fun hpos => absurd hpos (lt_irrefl 0)⟩

/-- Open sources of one size agree if they do on what they ask for. -/
theorem readAvailable_agree {texts texts' : SourceTexts} {size : ℤ} {ctx ctx' : ReadContext}
    {destination : List UInt8} {offset : ℤ} {read read' : ℤ → Bool → ReadResult}
    (hlive : ctx.before = none) (hlive' : ctx'.before = none)
    (hread : ∀ wanted clipped, Wanted size destination offset wanted clipped →
      Agree (read wanted clipped) (read' wanted clipped)) :
    Agree (readAvailable texts false size ctx destination offset read)
      (readAvailable texts' false size ctx' destination offset read') := by
  simp only [readAvailable, hlive, hlive', Bool.false_eq_true, if_false]
  split_ifs with hisNegative hempty hbeyond hshort
  · exact ⟨rfl, rfl, by simp [failed], fun hpos => absurd hpos (lt_irrefl 0)⟩
  · exact ⟨rfl, rfl, Iff.rfl, fun _ => rfl⟩
  · exact ⟨rfl, rfl, Iff.rfl, fun _ => rfl⟩
  · exact hread _ _ (.short hempty hisNegative hbeyond hshort)
  · exact hread _ _ (.whole hempty hisNegative hbeyond hshort)

end BlackPearl.HttpRange
