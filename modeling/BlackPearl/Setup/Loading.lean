import BlackPearl.Setup.Saved

/-!
# Opening a setup directory and loading from it

Opening repairs the directory and removes every generation that the pointer does not name; it keeps
what the directory holds. Loading depends on the committed generation alone: `loaded` is what it
returns when no call on a file fails.
-/

set_option autoImplicit false

namespace BlackPearl.Setup

open BlackPearl.Library BlackPearl.Library.Files BlackPearl.Library.Program

/-! ## Generation names -/

/-- The name of the generation was made by `newGenerationID`. -/
def Saved.Named (s : Saved) : Prop := ∃ random, s.generation = newGenerationID random

theorem chars?_newGenerationID (random : Vector (Fin 256) 16) :
    ByteText.chars? (newGenerationID random) = some (encodeHex (random.toList.map Fin.val)) :=
  ByteText.chars?_map _

theorem decodeHex_newGenerationID (random : Vector (Fin 256) 16) :
    decodeHex (encodeHex (random.toList.map Fin.val)) = some (random.toList.map Fin.val) := by
  apply decodeHex_encodeHex
  intro b hb
  obtain ⟨i, _, rfl⟩ := List.mem_map.1 hb
  exact i.isLt

theorem isGenerationID_newGenerationID (random : Vector (Fin 256) 16) :
    isGenerationID (newGenerationID random) = true := by
  rw [isGenerationID, chars?_newGenerationID, Option.bind_some, decodeHex_newGenerationID]
  simp

/-- A generation has a name. -/
theorem newGenerationID_ne_nil (random : Vector (Fin 256) 16) : newGenerationID random ≠ [] := by
  intro h
  have hid := isGenerationID_newGenerationID random
  rw [h] at hid
  exact absurd hid (by decide)

theorem byteLength_newGenerationID (random : Vector (Fin 256) 16) :
    ByteText.byteLength (newGenerationID random) = 32 := by
  have hdigits := hexValue_of_decodeHex
    (Option.isSome_iff_exists.2 ⟨_, decodeHex_newGenerationID random⟩)
  rw [newGenerationID, ByteText.byteLength_ascii fun c hc => toNat_lt_of_hexValue (hdigits c hc),
    length_encodeHex]
  simp

section Specs

variable {A : Verdict ByteText → Prop}

/-! ## Reading -/

/-- A bounded read of a file that exists. -/
theorem readBounded_spec {P : Tree → Prop} {p : FilePath} {content : ByteText} (maximum : ℕ)
    (hp : ∀ t, P t → t.lookup p = some (.file content)) :
    Spec A P (readBounded p maximum)
      (fun c t => P t ∧ c = content ∧ ByteText.byteLength content ≤ maximum)
      (fun e t => P t ∧ e.is .notExist = false ∧
        (maximum < ByteText.byteLength content ∨ ∃ left, A (.fails left))) P := by
  apply Spec.bind (R := fun c t => P t ∧ c = content)
  · apply (readFile_spec hp).weaken (fun _ h => h) (fun _ _ h => h) _ (fun _ h => h)
    rintro e t ⟨ht, rfl, hfails⟩
    exact ⟨ht, by decide, Or.inr hfails⟩
  · intro c
    split
    · next hle =>
      apply Spec.pure
      rintro t ⟨ht, rfl⟩
      exact ⟨ht, rfl, hle⟩
    · next hgt =>
      apply Spec.fail
      rintro t ⟨ht, rfl⟩
      exact ⟨ht, rfl, Or.inl (Nat.lt_of_not_le hgt)⟩

/-- A bounded read of a file that does not exist. -/
theorem readBounded_none_spec {P : Tree → Prop} {p : FilePath} (maximum : ℕ)
    (hp : ∀ t, P t → t.lookup p = none) :
    Spec A P (readBounded p maximum) (fun _ _ => False)
      (fun e t => P t ∧ (e.is .notExist = true ∨ ∃ left, A (.fails left))) P := by
  apply Spec.bind (R := fun _ _ => False)
  · apply (readFile_none_spec hp).weaken (fun _ h => h) (fun _ _ h => h) _ (fun _ h => h)
    rintro e t ⟨ht, rfl | hfails⟩
    · exact ⟨ht, Or.inl (by decide)⟩
    · exact ⟨ht, Or.inr hfails⟩
  · exact fun c s _ h => h.elim

/-- The pointer to a named generation is read back. -/
theorem readCurrentGeneration_spec {s : Saved} (hs : s.Named) :
    Spec A (Commits s) readCurrentGeneration (fun g t => Commits s t ∧ g = s.generation)
      (fun e t => Commits s t ∧ e.is .notExist = false ∧ ∃ left, A (.fails left)) (Commits s) := by
  obtain ⟨random, hrandom⟩ := hs
  have hshort : ByteText.byteLength (s.generation ++ text "\n") ≤ 128 := by
    rw [ByteText.byteLength_append, hrandom, byteLength_newGenerationID]
    decide
  apply Spec.bind ((readBounded_spec 128 fun t ht => ht.pointer).weaken (fun _ h => h)
    (fun _ _ h => h) _ (fun _ h => h))
  · intro content
    apply Spec.start
    rintro t ⟨ht, rfl, -⟩
    rw [ByteText.trimSuffix_append, hrandom, if_pos (isGenerationID_newGenerationID random),
      ← hrandom]
    apply Spec.pure
    rintro _ rfl
    exact ⟨ht, rfl⟩
  · rintro e t ⟨ht, he, hlong | hfails⟩
    · omega
    · exact ⟨ht, he, hfails⟩

/-- Without a pointer there is no generation. -/
theorem readCurrentGeneration_none_spec {P : Tree → Prop}
    (hp : ∀ t, P t → t.lookup [currentFilename] = none) :
    Spec A P readCurrentGeneration (fun _ _ => False)
      (fun e t => P t ∧ (e.is .notExist = true ∨ ∃ left, A (.fails left))) P := by
  apply Spec.bind (readBounded_none_spec 128 hp)
  exact fun c s _ h => h.elim

/-! ## Opening -/

/-- A directory that can be opened: what it holds, or a place for it. -/
def Openable : Option Saved → Tree → Prop
  | none, t =>
      (t.lookup [] = none ∨ t.lookup [] = some .directory) ∧
        (t.lookup [generationsDirectory] = none ∨
          t.lookup [generationsDirectory] = some .directory) ∧
        t.lookup [currentFilename] = none
  | some s, t => Commits s t

theorem Holds.openable {v : Option Saved} {t : Tree} (h : Holds v t) : Openable v t := by
  cases v with
  | none => exact ⟨Or.inr h.root, Or.inr h.1, h.2⟩
  | some s => exact h

theorem openable_empty : Openable none Tree.empty := ⟨Or.inl rfl, Or.inl rfl, rfl⟩

/-- The directory itself and the directory of generations do not matter to a generation. -/
theorem Commits.same {s : Saved} {t t' : Tree} {p : FilePath} (h : Commits s t)
    (hp : p = [] ∨ p = [generationsDirectory])
    (hsame : ∀ q, q ≠ p → t'.lookup q = t.lookup q) : Commits s t' := by
  have hlong : ∀ q, generationRoot s.generation <+: q → q ≠ p := by
    rintro q hq rfl
    rcases hp with rfl | rfl
    · exact absurd hq.length_le (by simp [generationRoot])
    · exact not_within_generation _ _ hq
  refine Commits.congr h (hsame _ ?_) fun q hq => hsame q (hlong q hq)
  rcases hp with rfl | rfl
  · exact List.cons_ne_nil _ _
  · decide

/-- Opening keeps what the directory holds and leaves no other generation. -/
theorem new_spec {v : Option Saved} (hv : ∀ s, v = some s → s.Named) :
    Spec A (Openable v) (new true) (fun _ t => Holds v t ∧ OnlyGeneration (kept v) t)
      (fun _ t => Openable v t ∧ ∃ left, A (.fails left)) (Openable v) := by
  -- the directory itself
  let P : Tree → Prop := fun t => Openable v t ∧ t.lookup [] = some .directory
  have hroot : Spec A (Openable v) (mkdirAll [] : SetupProgram Unit) (fun _ => P)
      (fun _ t => Openable v t ∧ ∃ left, A (.fails left)) (Openable v) := by
    apply mkdirAll_spec
    · intro t ht
      cases v with
      | none => exact ht.1.symm.imp id fun h => ⟨h, Or.inl rfl⟩
      | some s => exact Or.inl (Holds.root (v := some s) ht)
    · intro t t' ht hsame hdir
      refine ⟨?_, hdir⟩
      cases v with
      | none =>
        refine ⟨Or.inr hdir, ?_, ?_⟩
        · rw [hsame _ (List.cons_ne_nil _ _)]
          exact ht.2.1
        · rw [hsame _ (List.cons_ne_nil _ _)]
          exact ht.2.2
      | some s => exact Commits.same ht (Or.inl rfl) hsame
  have hgenerations : Spec A P (mkdirAll [generationsDirectory] : SetupProgram Unit)
      (fun _ => Holds v) (fun _ t => Openable v t ∧ ∃ left, A (.fails left)) (Openable v) := by
    apply (mkdirAll_spec (N := Holds v) _ _).weaken (fun _ h => h) (fun _ _ h => h)
      (fun _ _ h => ⟨h.1.1, h.2⟩) (fun _ h => h.1)
    · rintro t ⟨ht, hdir⟩
      cases v with
      | none => exact ht.2.1.symm.imp id fun h => ⟨h, Or.inr hdir⟩
      | some s => exact Or.inl (Commits.generations ht)
    · rintro t t' ⟨ht, -⟩ hsame hdir
      cases v with
      | none =>
        refine ⟨hdir, ?_⟩
        rw [hsame _ (by decide)]
        exact ht.2.2
      | some s => exact Commits.same ht (Or.inr rfl) hsame
  have htouch : ∀ {R : Tree → Prop} (p : FilePath), (∀ t, R t → t.lookup p = some .directory) →
      (∀ t, R t → Openable v t) → Spec A R (touch p : SetupProgram Unit) (fun _ => R)
        (fun _ t => Openable v t ∧ ∃ left, A (.fails left)) (Openable v) := by
    intro R p hp hR
    apply (touch_exists_spec _).weaken (fun _ h => h) (fun _ _ h => h) (fun _ _ h => ⟨hR _ h.1, h.2⟩)
      (fun _ h => hR _ h)
    intro t ht
    rw [hp t ht]
    exact Option.some_ne_none _
  -- without a pointer the name is empty, and nothing is kept
  have hcurrent : Spec A (Holds v)
      (onError readCurrentGeneration fun e =>
        if e.is .notExist then pure [] else fail (newError "inspect saved setup generation"))
      (fun g t => Holds v t ∧ g = kept v)
      (fun _ t => Openable v t ∧ ∃ left, A (.fails left)) (Openable v) := by
    cases v with
    | none =>
      apply Spec.onError ((readCurrentGeneration_none_spec fun t ht => ht.2).weaken (fun _ h => h)
        (fun _ _ h => h.elim) (fun _ _ h => h) (fun _ h => Holds.openable (v := none) h))
      intro e
      split
      · exact .pure fun t ht => ⟨ht.1, rfl⟩
      · next hnot =>
        apply Spec.fail
        exact fun t ht => ⟨Holds.openable (v := none) ht.1, ht.2.resolve_left hnot⟩
    | some s =>
      apply Spec.onError (readCurrentGeneration_spec (hv s rfl))
      intro e
      split
      · next his =>
        apply Spec.pure
        rintro t ⟨-, hnot, -⟩
        exact absurd (his.symm.trans hnot) (by decide)
      · exact .fail fun t ht => ⟨ht.1, ht.2.2⟩
  apply Spec.bind (Spec.mapError hroot)
  intro _
  apply Spec.bind (Spec.mapError (htouch [] (fun t ht => ht.2) fun t ht => ht.1))
  intro _
  apply Spec.bind (Spec.mapError hgenerations)
  intro _
  apply Spec.bind (Spec.mapError (htouch [generationsDirectory] (fun t ht => ht.generations)
    fun t ht => ht.openable))
  intro _
  apply Spec.bind hcurrent
  intro g
  apply Spec.start
  rintro t ⟨ht, rfl⟩
  apply Spec.mapError
  apply (cleanupInactiveGenerations_spec v).weaken
  · rintro _ rfl
    exact ht
  · exact fun _ _ h => h
  · exact fun _ _ h => ⟨h.1.openable, h.2⟩
  · exact fun _ h => h.openable

/-- Opening where every call on a file takes effect. -/
theorem new_calm {v : Option Saved} (hv : ∀ s, v = some s → s.Named) {t : Tree}
    (ht : Openable v t) :
    ∃ t', new true (.calm t) = (.ok (), .calm t') ∧ Holds v t' ∧ OnlyGeneration (kept v) t' := by
  have hcalm : ¬ ∃ left : ByteText, Verdict.fails left = .done := by
    rintro ⟨_, h⟩
    cases h
  obtain ⟨_, t', hrun, hholds⟩ := Spec.returns (P := Openable v) (C := Openable v)
    ((new_spec hv).weaken (fun _ h => h) (fun _ _ h => h) (fun _ _ h => hcalm h.2) (fun _ h => h)) ht
  exact ⟨t', hrun, hholds⟩

/-! ## Loading -/

section Loaded

variable [TextTables]

/-- What the state file of a generation gives. -/
def loadedState : SavedState → Except SetupError SetupManifest
  | .manifest content =>
      if ByteText.byteLength content ≤ maxManifestBytes then decodeSavedManifest content
      else .error (newError "read saved setup manifest")
  | .configuration content =>
      if ByteText.byteLength content ≤ maxConfigurationBytes then decodeSavedConfiguration content
      else .error (newError "read saved setup configuration")

/-- What loading a committed generation returns. -/
def loaded (s : Saved) : Except SetupError (ByteText × SetupManifest) :=
  if ByteText.byteLength (s.token ++ text "\n") ≤ maxTokenBytes then
    match validateToken s.token with
    | .error message => .error (newError message)
    | .ok _ => (loadedState s.state).map fun manifest => (s.token, manifest)
  else .error (newError "read saved setup token")

theorem loaded_of_long {s : Saved}
    (h : maxTokenBytes < ByteText.byteLength (s.token ++ text "\n")) :
    loaded s = .error (newError "read saved setup token") :=
  if_neg (Nat.not_le_of_lt h)

theorem loaded_of_valid {s : Saved} {u : Unit}
    (hshort : ByteText.byteLength (s.token ++ text "\n") ≤ maxTokenBytes)
    (hvalid : validateToken s.token = .ok u) :
    loaded s = (loadedState s.state).map fun manifest => (s.token, manifest) := by
  rw [loaded, if_pos hshort, hvalid]

/-- What loading returns. -/
def loadedFrom : Option Saved → Except SetupError (ByteText × SetupManifest)
  | none => .error errNotFound
  | some s => loaded s

omit [TextTables] in
/-- The token is returned with what was decoded. -/
theorem decoded_spec (P : Tree → Prop) (token : ByteText) (r : Except SetupError SetupManifest) :
    Spec A P (do let validated ← computed r; return (token, validated))
      (fun x t => P t ∧ r.map (fun m => (token, m)) = .ok x)
      (fun e t => P t ∧ r.map (fun m => (token, m)) = .error e) P := by
  apply Spec.bind (R := fun m t => P t ∧ r = .ok m)
  · apply (computed_spec P r).weaken (fun _ h => h) (fun _ _ h => h) _ (fun _ h => h)
    rintro e t ⟨ht, rfl⟩
    exact ⟨ht, rfl⟩
  · intro m
    apply Spec.pure
    rintro t ⟨ht, rfl⟩
    exact ⟨ht, rfl⟩

/-- The state file of a generation is read and decoded. -/
theorem loadState_spec (s : Saved) :
    Spec A (Commits s)
      (do
        let manifestJSON ← onError
          (do
            let content ←
              readBounded (generationRoot s.generation ++ [manifestFilename]) maxManifestBytes
            return some content)
          (fun e => if e.is .notExist then return none
            else fail (newError "read saved setup manifest"))
        match manifestJSON with
        | some content =>
            let validated ← computed (decodeSavedManifest content)
            return (s.token, validated)
        | none =>
            let content ← mapError
              (readBounded (generationRoot s.generation ++ [configurationFilename])
                maxConfigurationBytes)
              fun _ => newError "read saved setup configuration"
            let validated ← computed (decodeSavedConfiguration content)
            return (s.token, validated))
      (fun r t => Commits s t ∧ (loadedState s.state).map (fun m => (s.token, m)) = .ok r)
      (fun e t => Commits s t ∧
        ((loadedState s.state).map (fun m => (s.token, m)) = .error e ∨ ∃ left, A (.fails left)))
      (Commits s) := by
  cases hstate : s.state with
  | manifest content =>
    have hfile : ∀ t, Commits s t →
        t.lookup (generationRoot s.generation ++ [manifestFilename]) = some (.file content) := by
      intro t ht
      have h := ht.state
      rwa [hstate] at h
    apply Spec.bind (R := fun found t => Commits s t ∧ found = some content ∧
      ByteText.byteLength content ≤ maxManifestBytes)
    · apply Spec.onError (F := fun e t => Commits s t ∧ e.is .notExist = false ∧
        (maxManifestBytes < ByteText.byteLength content ∨ ∃ left, A (.fails left)))
      · apply Spec.bind (readBounded_spec maxManifestBytes hfile)
        intro c
        apply Spec.pure
        rintro t ⟨ht, rfl, hshort⟩
        exact ⟨ht, rfl, hshort⟩
      · intro e
        split
        · next his =>
          apply Spec.pure
          rintro t ⟨-, hnot, -⟩
          exact absurd (his.symm.trans hnot) (by decide)
        · apply Spec.fail
          rintro t ⟨ht, -, hlong | hfails⟩
          · refine ⟨ht, Or.inl ?_⟩
            rw [loadedState, if_neg (Nat.not_le_of_lt hlong), Except.map]
          · exact ⟨ht, Or.inr hfails⟩
    · intro found
      apply Spec.start
      rintro t₀ ⟨ht₀, rfl, hshort⟩
      rw [loadedState, if_pos hshort]
      exact (decoded_spec (Commits s) s.token _).weaken (by rintro _ rfl; exact ht₀)
        (fun _ _ h => h) (fun _ _ h => ⟨h.1, Or.inl h.2⟩) (fun _ h => h)
  | configuration content =>
    have hfile : ∀ t, Commits s t →
        t.lookup (generationRoot s.generation ++ [configurationFilename]) =
          some (.file content) := by
      intro t ht
      have h := ht.state
      rwa [hstate] at h
    have hnone : ∀ t, Commits s t →
        t.lookup (generationRoot s.generation ++ [manifestFilename]) = none := by
      intro t ht
      have h := ht.alone
      rwa [hstate] at h
    apply Spec.bind (R := fun found t => Commits s t ∧ found = none)
    · apply Spec.onError (F := fun e t => Commits s t ∧
        (e.is .notExist = true ∨ ∃ left, A (.fails left)))
      · apply Spec.bind (readBounded_none_spec maxManifestBytes hnone)
        exact fun _ _ _ h => h.elim
      · intro e
        split
        · exact .pure fun t ht => ⟨ht.1, rfl⟩
        · next hnot =>
          apply Spec.fail
          exact fun t ht => ⟨ht.1, Or.inr (ht.2.resolve_left hnot)⟩
    · intro found
      apply Spec.start
      rintro t₀ ⟨ht₀, rfl⟩
      apply Spec.bind (R := fun c t => Commits s t ∧ c = content ∧
        ByteText.byteLength content ≤ maxConfigurationBytes)
      · apply Spec.mapError
        apply (readBounded_spec maxConfigurationBytes hfile).weaken (by rintro _ rfl; exact ht₀)
          (fun _ _ h => h) _ (fun _ h => h)
        rintro e t ⟨ht, -, hlong | hfails⟩
        · refine ⟨ht, Or.inl ?_⟩
          rw [loadedState, if_neg (Nat.not_le_of_lt hlong), Except.map]
        · exact ⟨ht, Or.inr hfails⟩
      · intro c
        apply Spec.start
        rintro t₁ ⟨ht₁, rfl, hshort⟩
        rw [loadedState, if_pos hshort]
        exact (decoded_spec (Commits s) s.token _).weaken (by rintro _ rfl; exact ht₁)
          (fun _ _ h => h) (fun _ _ h => ⟨h.1, Or.inl h.2⟩) (fun _ h => h)


/-- What loading returns is computed from the generation, unless a call on a file fails. -/
theorem loadManifest_spec {s : Saved} (hs : s.Named) :
    Spec A (Commits s) (loadManifest false) (fun r t => Commits s t ∧ loaded s = .ok r)
      (fun e t => Commits s t ∧ (loaded s = .error e ∨ ∃ left, A (.fails left))) (Commits s) := by
  have hcurrent : Spec A (Commits s)
      (onError readCurrentGeneration fun e =>
        if e.is .notExist then fail errNotFound else fail (newError "read saved setup generation"))
      (fun g t => Commits s t ∧ g = s.generation)
      (fun e t => Commits s t ∧ (loaded s = .error e ∨ ∃ left, A (.fails left))) (Commits s) := by
    apply Spec.onError (readCurrentGeneration_spec hs)
    intro e
    split
    · next his =>
      apply Spec.fail
      rintro t ⟨-, hnot, -⟩
      exact absurd (his.symm.trans hnot) (by decide)
    · exact .fail fun t ht => ⟨ht.1, Or.inr ht.2.2⟩
  have htoken : Spec A (Commits s)
      (mapError (readBounded (generationRoot s.generation ++ [tokenFilename]) maxTokenBytes)
        fun _ => newError "read saved setup token")
      (fun c t => Commits s t ∧ c = s.token ++ text "\n" ∧
        ByteText.byteLength (s.token ++ text "\n") ≤ maxTokenBytes)
      (fun e t => Commits s t ∧ (loaded s = .error e ∨ ∃ left, A (.fails left))) (Commits s) := by
    apply Spec.mapError
    apply (readBounded_spec maxTokenBytes fun t ht => ht.token).weaken (fun _ h => h)
      (fun _ _ h => h) _ (fun _ h => h)
    rintro e t ⟨ht, -, hlong | hfails⟩
    · refine ⟨ht, Or.inl ?_⟩
      exact loaded_of_long hlong
    · exact ⟨ht, Or.inr hfails⟩
  apply Spec.bind hcurrent
  intro g
  apply Spec.start
  rintro t₀ ⟨ht₀, rfl⟩
  apply Spec.bind (htoken.weaken (by rintro _ rfl; exact ht₀) (fun _ _ h => h) (fun _ _ h => h)
    (fun _ h => h))
  intro c
  apply Spec.start
  rintro t₁ ⟨ht₁, rfl, hshort⟩
  rw [ByteText.trimSuffix_append]
  have hloaded : loaded s = match validateToken s.token with
    | .error message => .error (newError message)
    | .ok _ => (loadedState s.state).map fun manifest => (s.token, manifest) := if_pos hshort
  apply Spec.bind ((checked_spec (Commits s) (validateToken s.token)).weaken
    (by rintro _ rfl; exact ht₁) (fun _ _ h => h) _ (fun _ h => h))
  · rintro _
    apply Spec.start
    rintro t₂ ⟨ht₂, hvalid⟩
    rw [hvalid] at hloaded
    rw [hloaded]
    exact (loadState_spec s).weaken (by rintro _ rfl; exact ht₂) (fun _ _ h => h) (fun _ _ h => h)
      (fun _ h => h)
  · rintro _ t ⟨ht, message, hinvalid, rfl⟩
    rw [hinvalid] at hloaded
    exact ⟨ht, Or.inl hloaded⟩

/-- Without a pointer nothing is found. -/
theorem loadManifest_none_spec {P : Tree → Prop}
    (hp : ∀ t, P t → t.lookup [currentFilename] = none) :
    Spec A P (loadManifest false) (fun _ _ => False)
      (fun e t => P t ∧ (e = errNotFound ∨ ∃ left, A (.fails left))) P := by
  apply Spec.bind (R := fun _ _ => False)
  · apply Spec.onError (readCurrentGeneration_none_spec hp)
    intro e
    split
    · exact .fail fun t ht => ⟨ht.1, Or.inl rfl⟩
    · next hnot =>
      apply Spec.fail
      exact fun t ht => ⟨ht.1, Or.inr (ht.2.resolve_left hnot)⟩
  · exact fun _ _ _ h => h.elim

/-- Loading where every call on a file takes effect. -/
theorem loadManifest_calm {v : Option Saved} (hv : ∀ s, v = some s → s.Named) {t : Tree}
    (ht : Holds v t) : (loadManifest false (.calm t)).1 = Outcome.of (loadedFrom v) := by
  have hcalm : ¬ ∃ left : ByteText, Verdict.fails left = .done := by
    rintro ⟨_, h⟩
    cases h
  cases v with
  | none =>
    apply Spec.decides (P := Holds none) (C := Holds none) _ ht
    apply (loadManifest_none_spec (P := Holds none) fun t ht => ht.2).weaken (fun _ h => h) (fun _ _ h => h.elim) _
      (fun _ h => h)
    rintro e t ⟨-, rfl | hfails⟩
    · rfl
    · exact absurd hfails hcalm
  | some s =>
    apply Spec.decides (P := Commits s) (C := Commits s) _ ht
    apply (loadManifest_spec (hv s rfl)).weaken (fun _ h => h) (fun _ _ h => h.2) _ (fun _ h => h)
    rintro e t ⟨-, he | hfails⟩
    · exact he
    · exact absurd hfails hcalm

end Loaded

end Specs

end BlackPearl.Setup
