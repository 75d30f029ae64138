import BlackPearl.Setup.Loading

/-!
# The round trip of a saved setup

After a save that returned without an error, loading gives the token and the normal form of the
manifest exactly if the token has at most 4095 bytes, the manifest takes at most 512 KiB as JSON and
its texts are valid UTF-8 (`loadTwice_saved_iff`). The checks of the save admit more: a token of 4096
bytes is accepted, and its file is one byte longer than the reader's limit.
-/

set_option autoImplicit false

namespace BlackPearl.Setup

open BlackPearl.Library BlackPearl.Library.Files BlackPearl.Library.Program

section Calls

variable [TextTables]

/-- Load, open the directory again, and load again. -/
def loadTwice : SetupProgram ((ByteText × SetupManifest) × (ByteText × SetupManifest)) := do
  let first ← loadManifest false
  new true
  let second ← loadManifest false
  return (first, second)

/-- What a committed generation holds is loaded both times. -/
theorem loadTwice_calm {s : Saved} (hs : s.Named) {t : Tree} (ht : Commits s t) :
    (loadTwice (.calm t)).1 = Outcome.of ((loaded s).map fun r => (r, r)) := by
  have hcalm : ¬ ∃ left : ByteText, Verdict.fails left = .done := by
    rintro ⟨_, h⟩
    cases h
  have hload : Spec (fun v => v = .done) (Commits s) (loadManifest false)
      (fun r t => Commits s t ∧ loaded s = .ok r)
      (fun e _ => (loaded s).map (fun r => (r, r)) = .error e) (Commits s) := by
    apply (loadManifest_spec hs).weaken (fun _ h => h) (fun _ _ h => h) _ (fun _ h => h)
    rintro e t ⟨-, he | hfails⟩
    · rw [he, Except.map]
    · exact absurd hfails hcalm
  apply Spec.decides (P := Commits s) (C := Commits s) _ ht
  apply Spec.bind hload
  intro first
  apply Spec.start
  rintro t₁ ⟨ht₁, hfirst⟩
  apply Spec.bind (R := fun _ => Commits s)
  · apply (new_spec (v := some s) (by rintro _ ⟨⟩; exact hs)).weaken
    · rintro _ rfl
      exact ht₁
    · exact fun _ _ h => h.1
    · exact fun _ _ h => absurd h.2 hcalm
    · exact fun _ h => h
  · intro _
    apply Spec.bind hload
    intro second
    apply Spec.pure
    rintro t ⟨-, hsecond⟩
    obtain rfl := Except.ok.inj (hfirst.symm.trans hsecond)
    rw [hfirst, Except.map]

/-- What the content of a written manifest decodes to. -/
theorem decodeSavedManifest_marshal (n : SetupManifest) :
    decodeSavedManifest (marshalLine (encodeManifest n)) =
      match newSetupManifest n.repair.items with
      | .error message => .error (newError ("validate saved setup manifest: " ++ message))
      | .ok validated => .ok validated := by
  have hmarshal := unmarshalManifest_marshal n
  unfold decodeSavedManifest
  split
  · next hnone =>
    rw [hmarshal] at hnone
    cases hnone
  · next decoded hsome =>
    rw [hmarshal] at hsome
    obtain rfl := Option.some.inj hsome
    rfl

/-- A normalized manifest comes back exactly if its texts are valid. -/
theorem decodeSavedManifest_eq_self {items : List SetupConfiguration} {n : SetupManifest}
    (hn : newSetupManifest items = .ok n) :
    decodeSavedManifest (marshalLine (encodeManifest n)) = .ok n ↔ n.isValid = true := by
  rw [decodeSavedManifest_marshal]
  constructor
  · intro h
    split at h
    · cases h
    · next validated hvalidated =>
      obtain rfl := Except.ok.inj h
      apply newSetupManifest_isValid hvalidated
      rw [SetupManifest.repair, List.all_map, List.all_eq_true]
      exact fun c _ => SetupConfiguration.isValid_repair c
  · intro h
    rw [SetupManifest.repair_eq_self.2 h, newSetupManifest_idem hn]

/-- What was saved is loaded exactly within the limits of the reader. -/
theorem loaded_savedManifest_iff {items : List SetupConfiguration} {n : SetupManifest}
    {token : ByteText} (fresh : FreshNames) (hn : newSetupManifest items = .ok n)
    (htoken : validateToken token = .ok ()) :
    loaded (savedManifest token n fresh) = .ok (token, n) ↔
      ByteText.byteLength token ≤ 4095 ∧
        ByteText.byteLength (marshalLine (encodeManifest n)) ≤ maxManifestBytes ∧
        n.isValid = true := by
  have hline : ByteText.byteLength (token ++ text "\n") ≤ maxTokenBytes ↔
      ByteText.byteLength token ≤ 4095 := by
    have hone : ByteText.byteLength (text "\n") = 1 := by decide
    rw [ByteText.byteLength_append, hone, maxTokenBytes]
    omega
  have hcontent : loadedState (savedManifest token n fresh).state = .ok n ↔
      ByteText.byteLength (marshalLine (encodeManifest n)) ≤ maxManifestBytes ∧
        n.isValid = true := by
    rw [savedManifest, loadedState]
    split
    · next hshort => rw [decodeSavedManifest_eq_self hn, and_iff_right hshort]
    · next hlong =>
      constructor
      · intro h
        cases h
      · exact fun h => absurd h.1 hlong
  rw [← hcontent, ← hline]
  by_cases hshort : ByteText.byteLength (token ++ text "\n") ≤ maxTokenBytes
  · rw [loaded_of_valid (s := savedManifest token n fresh) hshort htoken, and_iff_right hshort]
    cases loadedState (savedManifest token n fresh).state with
    | error e => simp [Except.map]
    | ok m => simp [Except.map, savedManifest]
  · rw [loaded_of_long (s := savedManifest token n fresh) (Nat.lt_of_not_le hshort)]
    constructor
    · intro h
      cases h
    · exact fun h => absurd h.1 hshort

/-- After a save that returned without an error, a load gives the same token and the normal form of
the manifest, and so does a load after opening the directory again, exactly if the token leaves room
for a line break, the manifest fits the limit of its reader and all its texts are valid. -/
theorem loadTwice_saved_iff {cancelled : Bool} {token : ByteText} {manifest : SetupManifest}
    {fresh : FreshNames} {before : Machine Tree ByteText}
    (hsaved : (saveManifest cancelled token manifest fresh before).1 = .ok ()) :
    ∃ n, newSetupManifest manifest.items = .ok n ∧
      ((loadTwice (.calm (saveManifest cancelled token manifest fresh before).2.state)).1 =
          .ok ((token, n), (token, n)) ↔
        ByteText.byteLength token ≤ 4095 ∧
          ByteText.byteLength (marshalLine (encodeManifest n)) ≤ maxManifestBytes ∧
          n.isValid = true) := by
  have hapart : ∀ (n : SetupManifest) (t : Tree), True →
      t.lookup (generationRoot (newGenerationID fresh.generation)) = none →
      Apart (fun _ => True) (savedManifest token n fresh) fresh :=
    fun n t _ _ => ⟨fun _ _ _ h => h, fun _ _ _ h => h⟩
  have hspec : Spec (fun _ => True) (fun _ => True) (saveManifest cancelled token manifest fresh)
      _ _ _ := saveManifest_spec hapart
  have hends := (hspec before (fun _ => trivial) trivial).1
  generalize saveManifest cancelled token manifest fresh before = ended at hsaved hends
  obtain ⟨_, after⟩ := ended
  obtain rfl := hsaved
  cases hends with
  | ok h =>
    obtain ⟨⟨n, hn, htoken, hcommits⟩, -⟩ := h
    refine ⟨n, hn, ?_⟩
    rw [loadTwice_calm ⟨_, rfl⟩ hcommits, ← loaded_savedManifest_iff fresh hn htoken]
    cases loaded (savedManifest token n fresh) with
    | error e => simp [Except.map, Outcome.of]
    | ok r => simp [Except.map, Outcome.of]

end Calls

section SmallRuns

attribute [local instance] TextTables.ascii

/-- A manifest of one movie. -/
def smallManifest : SetupManifest :=
  ⟨[{ objectID := text "o", name := text "m.mkv", size := 1, title := text "T", year := 2000 }]⟩

def smallNames : FreshNames := ⟨Vector.replicate 16 7, text "1", text "2", text "3"⟩

/-- A directory that was opened for the first time. -/
def smallDirectory : Machine Tree ByteText := (new true (.calm Tree.empty)).2

/-- A token as long as the check of tokens admits: 1024 characters of four bytes. -/
def longToken : ByteText := List.replicate 1024 (.char '😀')

/-- The theorem above for a short token. -/
theorem loadTwice_saved_small :
    (saveManifest false (text "t") smallManifest smallNames smallDirectory).1 = .ok () ∧
      ∃ n, newSetupManifest smallManifest.items = .ok n ∧
        ((loadTwice (.calm
            (saveManifest false (text "t") smallManifest smallNames smallDirectory).2.state)).1 =
            .ok ((text "t", n), (text "t", n)) ↔
          ByteText.byteLength (text "t") ≤ 4095 ∧
            ByteText.byteLength (marshalLine (encodeManifest n)) ≤ maxManifestBytes ∧
            n.isValid = true) := by
  have hsaved : (saveManifest false (text "t") smallManifest smallNames smallDirectory).1 =
      .ok () := by decide +kernel
  exact ⟨hsaved, loadTwice_saved_iff hsaved⟩

/-- A token of 4096 bytes is saved, and cannot be loaded. -/
theorem save_accepts_unloadable_token :
    (saveManifest false longToken smallManifest smallNames smallDirectory).1 = .ok () ∧
      (loadManifest false (.calm
        (saveManifest false longToken smallManifest smallNames smallDirectory).2.state)).1 =
        .error (newError "read saved setup token") := by
  decide +kernel

end SmallRuns

end BlackPearl.Setup
