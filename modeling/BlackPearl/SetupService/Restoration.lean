import BlackPearl.Catalog.Prepare
import BlackPearl.SetupService.Transactions

/-!
# Restoring the saved setup

`restoreSavedSetup` and `retrySetupRestore` of `cmd/blackpearl/app.go`, over `Restore` with the
catalogs of `prepareRangeCatalog`. One attempt publishes exactly the items whose sources answer, and
never in the place of something that is active already, unless it has every saved item
(`restoreWith_restores`). So a run of the loop leaves what its attempts make of it: everything that is
saved if one of them reached everything, and otherwise what the first one reached
(`restoreSavedSetup_publishes`).
-/

set_option autoImplicit false

namespace BlackPearl.SetupService

open BlackPearl.Library BlackPearl.Setup BlackPearl.Catalog

/-! ## Attempts -/

/-- What happens during one `Restore`: what its calls return, where its runtime is what
`prepareRangeCatalog` makes of the answers of the sources. -/
structure RestoreAttempt where
  load : Call := .ok ()
  cancelled : Bool := false
  sources : SetupConfiguration → ItemCalls
  ready : Call := .ok ()
  publish : Call := .ok ()

section Restoration

variable (digest : ByteText → ByteText) [TextTables]

/-- The calls of the attempt for a saved manifest. -/
def RestoreAttempt.calls (a : RestoreAttempt) (manifest : SetupManifest) : RestoreCalls where
  load := a.load
  prepare :=
    match prepareRangeCatalog digest a.cancelled true a.sources manifest with
    | .error e => .error e.unavailable
    | .ok p => .ok ⟨true, p.activeManifest⟩
  ready := a.ready
  publish := a.publish

/-- `Restore` in an attempt. -/
def restoreWith (a : RestoreAttempt) (s : Service) : Except ServiceError Unit × Service :=
  restore (a.calls digest ((s.saved.map SavedSetup.manifest).getD ⟨[]⟩)) s

/-! ## The loop -/

/-- `time.Minute`, in nanoseconds. -/
def minute : ℤ := 60 * 10 ^ 9

/-- How `retrySetupRestore` goes on after a wait: the context has ended, or it tries again. -/
inductive RetryTick
  | cancelled
  | attempt (a : RestoreAttempt)

/-- What a run of the loop has done: the service, the attempts and the waits before them; `running` is
whether it goes on. -/
structure RestoreRun where
  service : Service
  made : List RestoreAttempt
  waits : List ℤ
  running : Bool

/-- The wait after this one. -/
def nextDelay (delay : ℤ) : ℤ := if delay < minute / 2 then delay * 2 else minute

/-- `retrySetupRestore`. -/
def retrySetupRestore : ℤ → List RetryTick → Service → RestoreRun
  | _, [], s => ⟨s, [], [], true⟩
  | delay, .cancelled :: _, s => ⟨s, [], [delay], false⟩
  | delay, .attempt a :: ticks, s =>
      match restoreWith digest a s with
      | (.ok (), t) => ⟨t, [a], [delay], false⟩
      | (.error e, t) =>
          if .unavailable ∈ e.causes then
            let later := retrySetupRestore (nextDelay delay) ticks t
            { later with made := a :: later.made, waits := delay :: later.waits }
          else ⟨t, [a], [delay], false⟩

/-- `restoreSavedSetup`. -/
def restoreSavedSetup (first : RestoreAttempt) (retryDelay : ℤ) (ticks : List RetryTick)
    (s : Service) : RestoreRun :=
  match restoreWith digest first s with
  | (.ok (), t) => ⟨t, [first], [], false⟩
  | (.error e, t) =>
      if .notFound ∈ e.causes ∨ .unavailable ∉ e.causes then ⟨t, [first], [], false⟩
      else
        let later := retrySetupRestore digest retryDelay ticks t
        { later with made := first :: later.made }

end Restoration

/-! ## What an attempt can publish -/

/-- The items whose sources answer. -/
def RestoreAttempt.served (a : RestoreAttempt) (m : SetupManifest) : List SetupConfiguration :=
  m.items.filter fun c => (a.sources c).Serves c

/-- The catalog can be prepared: each source answers, or cannot be reached, and one answers. -/
def RestoreAttempt.Prepares (a : RestoreAttempt) (m : SetupManifest) : Prop :=
  a.cancelled = false ∧ (∀ c ∈ m.items, (a.sources c).Serves c ∨ (a.sources c).Skipped true) ∧
    a.served m ≠ []

/-- The attempt gets as far as its publication, and that succeeds. -/
def RestoreAttempt.Publishes (a : RestoreAttempt) (m : SetupManifest) : Prop :=
  a.load = .ok () ∧ a.Prepares m ∧ a.ready = .ok () ∧ a.publish = .ok ()

/-- It publishes everything. -/
def RestoreAttempt.PublishesAll (a : RestoreAttempt) (m : SetupManifest) : Prop :=
  a.Publishes m ∧ a.served m = m.items

instance (a : RestoreAttempt) (m : SetupManifest) : Decidable (a.Prepares m) :=
  inferInstanceAs (Decidable (_ ∧ _ ∧ _))

instance (a : RestoreAttempt) (m : SetupManifest) : Decidable (a.Publishes m) :=
  inferInstanceAs (Decidable (_ ∧ _ ∧ _ ∧ _))

instance (a : RestoreAttempt) (m : SetupManifest) : Decidable (a.PublishesAll m) :=
  inferInstanceAs (Decidable (_ ∧ _))

/-- What attempts in turn make of a service that publishes nothing. -/
def bestOf (m : SetupManifest) (made : List RestoreAttempt) : Option SetupManifest :=
  if ∃ a ∈ made, a.PublishesAll m then some m
  else (made.find? fun a => a.Publishes m).map fun a => ⟨a.served m⟩

/-! ## One attempt -/

/-- What an attempt does to a service whose saved manifest is `m`. -/
structure Restores [TextTables] (a : RestoreAttempt) (m : SetupManifest) (s : Service)
    (r : Except ServiceError Unit × Service) : Prop where
  saved : r.2.saved = s.saved
  published : a.Publishes m → a.served m = m.items ∨ s.manifest = none →
    r.2.live = some ⟨a.served m⟩ ∧ r.2.manifest = some ⟨a.served m⟩
  kept : ¬ (a.Publishes m ∧ (a.served m = m.items ∨ s.manifest = none)) →
    r.2.live = s.live ∧ r.2.manifest = s.manifest
  succeeds : r.1 = .ok () ↔ a.PublishesAll m
  retried : a.load = .ok () → a.Prepares m → ¬ a.PublishesAll m →
    ∃ e, r.1 = .error e ∧ .unavailable ∈ e.causes
  accepted : a.load = .ok () → ∀ e, r.1 = .error e → e.context ≠ "validate saved setup preparation"
  found : ∀ e, r.1 = .error e → .notFound ∉ e.causes

theorem orderedSubset_of_sublist {active saved : List SetupConfiguration}
    (h : active.Sublist saved) : orderedSubset active saved = true := by
  induction saved generalizing active with
  | nil =>
    rw [List.sublist_nil.1 h]
    rfl
  | cons c saved ih =>
    cases active with
    | nil => rfl
    | cons d active =>
      rw [orderedSubset]
      by_cases heq : c = d
      · subst heq
        rw [if_pos rfl]
        exact ih (List.cons_sublist_cons.1 h)
      · rw [if_neg heq]
        cases h with
        | cons _ hrest => exact ih hrest
        | cons_cons _ _ => exact absurd rfl heq

section Attempts

variable {digest : ByteText → ByteText} [TextTables] {s : Service} {m : SetupManifest}
  {a : RestoreAttempt}

omit [TextTables] in
/-- An attempt serves everything or fewer items. -/
theorem served_length_lt_iff : (a.served m).length < m.items.length ↔ a.served m ≠ m.items := by
  have hsublist : (a.served m).Sublist m.items := List.filter_sublist
  constructor
  · intro hlt heq
    rw [heq] at hlt
    exact Nat.lt_irrefl _ hlt
  · intro hne
    exact lt_of_le_of_ne hsublist.length_le fun heq => hne (hsublist.eq_of_length heq)

/-- The preparation of an attempt, as `Restore` sees it. -/
theorem prepare_of_prepares (hm : newSetupManifest m.items = .ok m) (h : a.Prepares m) :
    (a.calls digest m).prepare = .ok ⟨true, ⟨a.served m⟩⟩ := by
  obtain ⟨p, hp, hactive⟩ : ∃ p,
      prepareRangeCatalog digest a.cancelled true a.sources m = .ok p ∧ p.activeManifest = ⟨a.served m⟩ :=
    (prepareRangeCatalog_isOk_iff hm).2 h
  simp only [RestoreAttempt.calls, hp, hactive]

theorem prepare_of_not_prepares (hm : newSetupManifest m.items = .ok m) (h : ¬ a.Prepares m) :
    ∃ unavailable, (a.calls digest m).prepare = .error unavailable := by
  simp only [RestoreAttempt.calls]
  split
  · next e _ => exact ⟨e.unavailable, rfl⟩
  · next p hp =>
    obtain ⟨hcancelled, hall, hitems, hne, _⟩ := (prepareRangeCatalog_eq_ok hm).1 hp
    have hserved : a.served m ≠ [] := by
      rw [RestoreAttempt.served, ← hitems]
      exact hne
    exact absurd ⟨hcancelled, hall, hserved⟩ h

omit [TextTables] in
/-- `Restore` takes what was prepared for it. -/
theorem validateRestorePreparation_served (h : a.served m ≠ []) :
    validateRestorePreparation m ⟨true, ⟨a.served m⟩⟩ = .ok () := by
  have hsublist : (a.served m).Sublist m.items := List.filter_sublist
  simp only [validateRestorePreparation, bind_eq_ok, require_eq_ok]
  exact ⟨(), trivial, (), h, (), hsublist.length_le, orderedSubset_of_sublist hsublist⟩

theorem restoreWith_eq {saved : SavedSetup} (hsaved : s.saved = some saved) (a : RestoreAttempt) :
    restoreWith digest a s = restore (a.calls digest saved.manifest) s := by
  rw [restoreWith, hsaved]
  rfl

/-- An attempt that ends before its publication. -/
theorem restores_error {e : ServiceError} {t : Service} (hsaved : t.saved = s.saved)
    (hlive : t.live = s.live) (hmanifest : t.manifest = s.manifest)
    (hpublishes : ¬ (a.Publishes m ∧ (a.served m = m.items ∨ s.manifest = none)))
    (hunavailable : a.load = .ok () → a.Prepares m → .unavailable ∈ e.causes)
    (hcontext : a.load = .ok () → e.context ≠ "validate saved setup preparation")
    (hfound : .notFound ∉ e.causes) :
    Restores a m s (.error e, t) where
  saved := hsaved
  published h hroom := absurd ⟨h, hroom⟩ hpublishes
  kept _ := ⟨hlive, hmanifest⟩
  succeeds := by
    constructor
    · intro h
      cases h
    · rintro ⟨h, hall⟩
      exact absurd ⟨h, Or.inl hall⟩ hpublishes
  retried hload hprepares _ := ⟨e, rfl, hunavailable hload hprepares⟩
  accepted hload e' h := by
    cases h
    exact hcontext hload
  found e' h := by
    cases h
    exact hfound

/-- An attempt that publishes what it serves. -/
theorem restores_published {result : Except ServiceError Unit} {n : ℕ} (h : a.Publishes m)
    (hresult : a.served m = m.items ∧ result = .ok () ∨
      a.served m ≠ m.items ∧ s.manifest = none ∧
        result = .error ⟨"", [.degraded, .unavailable], none⟩) :
    Restores a m s (result, ((s.markSavedManifest n).publish ⟨a.served m⟩).setStatus ⟨a.served m⟩ n) where
  saved := rfl
  published _ _ := ⟨rfl, rfl⟩
  kept hnot := by
    apply absurd _ hnot
    rcases hresult with ⟨hall, _⟩ | ⟨_, hnone, _⟩
    · exact ⟨h, Or.inl hall⟩
    · exact ⟨h, Or.inr hnone⟩
  succeeds := by
    rcases hresult with ⟨hall, rfl⟩ | ⟨hless, _, rfl⟩
    · exact ⟨fun _ => ⟨h, hall⟩, fun _ => rfl⟩
    · constructor
      · intro herror
        cases herror
      · exact fun hall => absurd hall.2 hless
  retried _ _ hnot := by
    rcases hresult with ⟨hall, _⟩ | ⟨_, _, rfl⟩
    · exact absurd ⟨h, hall⟩ hnot
    · exact ⟨_, rfl, by simp⟩
  accepted _ e herror := by
    rcases hresult with ⟨_, rfl⟩ | ⟨_, _, rfl⟩
    · cases herror
    · cases herror
      decide
  found e herror := by
    rcases hresult with ⟨_, rfl⟩ | ⟨_, _, rfl⟩
    · cases herror
    · cases herror
      decide

/-- An attempt whose catalog is prepared. -/
theorem restore_prepared {saved : SavedSetup} (hsaved : s.saved = some saved)
    (hload : a.load = .ok ()) (hprepares : a.Prepares saved.manifest) :
    Restores a saved.manifest s (restore (a.calls digest saved.manifest) s) := by
  have hcalls : loadManifest (a.calls digest saved.manifest).load s = .ok saved := by
    simp only [RestoreAttempt.calls, loadManifest, hload, hsaved]
  have hprepare : (a.calls digest saved.manifest).prepare = .ok ⟨true, ⟨a.served saved.manifest⟩⟩ :=
    prepare_of_prepares saved.accepted hprepares
  have hvalid := validateRestorePreparation_served hprepares.2.2
  have hready : (a.calls digest saved.manifest).ready = a.ready := rfl
  have hpublish : (a.calls digest saved.manifest).publish = a.publish := rfl
  have hmarked : (s.markSavedManifest saved.manifest.items.length).manifest = s.manifest := rfl
  simp only [restore, hcalls, hprepare, hvalid, hready, hpublish, hmarked, Bool.and_eq_true,
    decide_eq_true_eq, served_length_lt_iff]
  split
  · next hguard =>
    -- something is active, and would become less
    refine restores_error rfl rfl rfl ?_ (fun _ _ => by simp) (fun _ => by decide) (by decide)
    rintro ⟨_, hall | hnone⟩
    · exact hguard.1 hall
    · rw [hnone] at hguard
      exact Bool.noConfusion hguard.2
  · next hguard =>
    cases hready' : a.ready with
    | error message =>
      refine restores_error rfl rfl rfl ?_ (fun _ _ => by simp) (fun _ => by decide) (by decide)
      rintro ⟨⟨_, _, hok, _⟩, _⟩
      rw [hready'] at hok
      cases hok
    | ok u =>
      cases hpublish' : a.publish with
      | error message =>
        refine restores_error rfl rfl rfl ?_ (fun _ _ => by simp) (fun _ => by decide) (by decide)
        rintro ⟨⟨_, _, _, hok⟩, _⟩
        rw [hpublish'] at hok
        cases hok
      | ok u' =>
        have hpublishes : a.Publishes saved.manifest := ⟨hload, hprepares, hready', hpublish'⟩
        by_cases hall : a.served saved.manifest = saved.manifest.items
        · rw [if_neg (not_not_intro hall)]
          exact restores_published hpublishes (Or.inl ⟨hall, rfl⟩)
        · rw [if_pos hall]
          refine restores_published hpublishes (Or.inr ⟨hall, ?_, rfl⟩)
          cases hmanifest : s.manifest with
          | none => rfl
          | some active => exact absurd ⟨hall, by rw [hmanifest]; rfl⟩ hguard

/-- An attempt publishes exactly what its sources serve, and only where nothing is active or everything
is served. It never refuses its own preparation. -/
theorem restoreWith_restores {saved : SavedSetup} (hsaved : s.saved = some saved)
    (a : RestoreAttempt) : Restores a saved.manifest s (restoreWith digest a s) := by
  rw [restoreWith_eq hsaved]
  cases hload : a.load with
  | error message =>
    have hcalls : loadManifest (a.calls digest saved.manifest).load s = .error (.failed message) := by
      simp only [RestoreAttempt.calls, loadManifest, hload]
    simp only [restore, hcalls]
    refine restores_error rfl rfl rfl ?_ ?_ ?_ (by simp)
    · rintro ⟨⟨hok, _⟩, _⟩
      rw [hload] at hok
      cases hok
    · intro hok
      rw [hload] at hok
      cases hok
    · intro hok
      rw [hload] at hok
      cases hok
  | ok u =>
    have hcalls : loadManifest (a.calls digest saved.manifest).load s = .ok saved := by
      simp only [RestoreAttempt.calls, loadManifest, hload, hsaved]
    by_cases hprepares : a.Prepares saved.manifest
    · exact restore_prepared hsaved hload hprepares
    · obtain ⟨unavailable, hprepare⟩ :
          ∃ unavailable, (a.calls digest saved.manifest).prepare = .error unavailable :=
        prepare_of_not_prepares saved.accepted hprepares
      have hpublishes : ¬ (a.Publishes saved.manifest ∧
          (a.served saved.manifest = saved.manifest.items ∨ s.manifest = none)) :=
        fun h => hprepares h.1.2.1
      cases unavailable with
      | true =>
        simp only [restore, hcalls, hprepare]
        exact restores_error rfl rfl rfl hpublishes (fun _ h => absurd h hprepares)
          (fun _ => by decide) (by decide)
      | false =>
        simp only [restore, hcalls, hprepare]
        exact restores_error rfl rfl rfl hpublishes (fun _ h => absurd h hprepares)
          (fun _ => by decide) (by decide)

/-! ## The whole loop -/

/-- What the attempts that were made have left of a service that published nothing before. -/
structure Progress (saved : SavedSetup) (made : List RestoreAttempt) (s : Service) : Prop where
  keeps : s.saved = some saved
  live : s.live = bestOf saved.manifest made
  manifest : s.manifest = bestOf saved.manifest made

omit [TextTables] in
theorem bestOf_all {made : List RestoreAttempt} (ha : a ∈ made) (hall : a.PublishesAll m) :
    bestOf m made = some m :=
  if_pos ⟨a, ha, hall⟩

omit [TextTables] in
theorem bestOf_less {made : List RestoreAttempt} (hnone : ∀ b ∈ made, ¬ b.PublishesAll m) :
    bestOf m made = (made.find? fun a => a.Publishes m).map fun a => ⟨a.served m⟩ :=
  if_neg fun ⟨b, hb, hall⟩ => hnone b hb hall

omit [TextTables] in
/-- One more attempt, which does not publish everything. -/
theorem bestOf_concat {made : List RestoreAttempt} (hnone : ∀ b ∈ made, ¬ b.PublishesAll m)
    (ha : ¬ a.PublishesAll m) :
    bestOf m (made ++ [a]) =
      if bestOf m made = none ∧ a.Publishes m then some ⟨a.served m⟩ else bestOf m made := by
  have hnone' : ∀ b ∈ made ++ [a], ¬ b.PublishesAll m := by
    intro b hb
    rcases List.mem_append.1 hb with hb | hb
    · exact hnone b hb
    · exact List.mem_singleton.1 hb ▸ ha
  rw [bestOf_less hnone, bestOf_less hnone', List.find?_append]
  cases made.find? fun b => b.Publishes m with
  | some b => simp
  | none => by_cases hpublishes : a.Publishes m <;> simp [hpublishes]

/-- An attempt goes on with what the attempts before it have left. -/
theorem Progress.attempt {saved : SavedSetup} {made : List RestoreAttempt}
    (h : Progress saved made s) (hnone : ∀ b ∈ made, ¬ b.PublishesAll saved.manifest)
    (a : RestoreAttempt) : Progress saved (made ++ [a]) (restoreWith digest a s).2 := by
  have hrestores : Restores a saved.manifest s (restoreWith digest a s) :=
    restoreWith_restores h.keeps a
  have hboth : (restoreWith digest a s).2.live = bestOf saved.manifest (made ++ [a]) ∧
      (restoreWith digest a s).2.manifest = bestOf saved.manifest (made ++ [a]) := by
    by_cases hall : a.PublishesAll saved.manifest
    · rw [bestOf_all (List.mem_append_right made (List.mem_singleton_self a)) hall]
      have hpublished := hrestores.published hall.1 (Or.inl hall.2)
      rw [hall.2] at hpublished
      exact hpublished
    · rw [bestOf_concat hnone hall, ← h.manifest]
      split
      · next hfirst => exact hrestores.published hfirst.2 (Or.inr hfirst.1)
      · next hlater =>
        -- nothing is published, or something is active that would become less
        have hkept := hrestores.kept fun hroom => hroom.2.elim
          (fun hserved => hall ⟨hroom.1, hserved⟩) fun hempty => hlater ⟨hempty, hroom.1⟩
        exact ⟨hkept.1.trans (h.live.trans h.manifest.symm), hkept.2⟩
  exact ⟨hrestores.saved.trans h.keeps, hboth.1, hboth.2⟩

/-- What a run of the loop has made of the service, and why it has ended. -/
structure Restored (saved : SavedSetup) (before : List RestoreAttempt) (ticks : List RetryTick)
    (run : RestoreRun) : Prop where
  progress : Progress saved (before ++ run.made) run.service
  once : ∀ earlier a later, run.made = earlier ++ a :: later → a.PublishesAll saved.manifest →
    later = [] ∧ run.running = false
  ended : run.running = false → .cancelled ∈ ticks ∨ ∃ a ∈ run.made.getLast?,
    a.PublishesAll saved.manifest ∨ ¬ (a.load = .ok () ∧ a.Prepares saved.manifest)

omit [TextTables] in
/-- The waits only become longer, up to a minute. -/
theorem delay_le_nextDelay {delay : ℤ} (hpos : 0 ≤ delay) (hle : delay ≤ minute) :
    delay ≤ nextDelay delay ∧ nextDelay delay ≤ minute := by
  unfold nextDelay minute at *
  split
  · omega
  · omega

variable (digest) in
theorem retrySetupRestore_waits {delay : ℤ} (hpos : 0 ≤ delay) (hle : delay ≤ minute)
    (ticks : List RetryTick) (s : Service) :
    (∀ w ∈ (retrySetupRestore digest delay ticks s).waits, delay ≤ w ∧ w ≤ minute) ∧
      (retrySetupRestore digest delay ticks s).waits.Pairwise (· ≤ ·) := by
  induction ticks generalizing delay s with
  | nil => exact ⟨fun w hw => absurd hw List.not_mem_nil, .nil⟩
  | cons tick ticks ih =>
    have hsingle : ∀ w ∈ [delay], delay ≤ w ∧ w ≤ minute := by
      intro w hw
      rw [List.mem_singleton.1 hw]
      exact ⟨le_refl _, hle⟩
    cases tick with
    | cancelled => exact ⟨hsingle, List.pairwise_singleton _ _⟩
    | attempt a =>
      rw [retrySetupRestore]
      split
      · exact ⟨hsingle, List.pairwise_singleton _ _⟩
      · next e t _ =>
        split
        · obtain ⟨hstep, hnext⟩ := delay_le_nextDelay hpos hle
          obtain ⟨hwaits, hlonger⟩ := ih (hpos.trans hstep) hnext t
          refine ⟨?_, List.pairwise_cons.2 ⟨fun w hw => hstep.trans (hwaits w hw).1, hlonger⟩⟩
          intro w hw
          rcases List.mem_cons.1 hw with rfl | hw
          · exact ⟨le_refl _, hle⟩
          · exact ⟨hstep.trans (hwaits w hw).1, (hwaits w hw).2⟩
        · exact ⟨hsingle, List.pairwise_singleton _ _⟩

/-- A run that ends with an attempt after the ones before it. -/
theorem restored_last {saved : SavedSetup} {before : List RestoreAttempt} {waits : List ℤ}
    {ticks : List RetryTick} {t : Service} (h : Progress saved (before ++ [a]) t)
    (hends : a.PublishesAll saved.manifest ∨ ¬ (a.load = .ok () ∧ a.Prepares saved.manifest)) :
    Restored saved before ticks ⟨t, [a], waits, false⟩ where
  progress := h
  once earlier b later hmade _ := by
    cases earlier with
    | nil => exact ⟨(List.cons.inj hmade).2.symm, rfl⟩
    | cons c earlier => simp at hmade
  ended _ := Or.inr ⟨a, rfl, hends⟩

/-- A run that goes on after an attempt. -/
theorem Restored.cons {saved : SavedSetup} {before : List RestoreAttempt} {waits : List ℤ}
    {ticks ticks' : List RetryTick} {run : RestoreRun} (ha : ¬ a.PublishesAll saved.manifest)
    (h : Restored saved (before ++ [a]) ticks run) (hticks : ticks ⊆ ticks') :
    Restored saved before ticks' { run with made := a :: run.made, waits := waits } where
  progress := by
    have hprogress := h.progress
    rw [List.append_assoc] at hprogress
    exact hprogress
  once earlier b later hmade hall := by
    cases earlier with
    | nil =>
      rw [List.nil_append, List.cons.injEq] at hmade
      rw [← hmade.1] at hall
      exact absurd hall ha
    | cons c earlier => exact h.once earlier b later (List.cons.inj hmade).2 hall
  ended hended := by
    rcases h.ended hended with hcancelled | ⟨b, hb, hends⟩
    · exact Or.inl (hticks hcancelled)
    · refine Or.inr ⟨b, ?_, hends⟩
      rw [List.getLast?_cons, Option.mem_def.1 hb]
      rfl

theorem retrySetupRestore_restored {saved : SavedSetup} {before : List RestoreAttempt}
    (h : Progress saved before s) (hnone : ∀ b ∈ before, ¬ b.PublishesAll saved.manifest) (delay : ℤ)
    (ticks : List RetryTick) : Restored saved before ticks (retrySetupRestore digest delay ticks s) := by
  induction ticks generalizing before delay s with
  | nil =>
    refine ⟨by rw [retrySetupRestore, List.append_nil]; exact h, ?_, fun hended => Bool.noConfusion hended⟩
    exact fun earlier a later hmade => absurd hmade (by simp [retrySetupRestore])
  | cons tick ticks ih =>
    cases tick with
    | cancelled =>
      refine ⟨by rw [retrySetupRestore, List.append_nil]; exact h, ?_, fun _ => Or.inl List.mem_cons_self⟩
      exact fun earlier a later hmade => absurd hmade (by simp [retrySetupRestore])
    | attempt a =>
      have hprogress : Progress saved (before ++ [a]) (restoreWith digest a s).2 := h.attempt hnone a
      have hrestores : Restores a saved.manifest s (restoreWith digest a s) :=
        restoreWith_restores h.keeps a
      rw [retrySetupRestore]
      generalize restoreWith digest a s = r at hprogress hrestores
      obtain ⟨result, t⟩ := r
      cases result with
      | ok u => exact restored_last hprogress (Or.inl (hrestores.succeeds.1 rfl))
      | error e =>
        have hnot : ¬ a.PublishesAll saved.manifest := by
          intro hall
          have hok : Except.error e = .ok () := hrestores.succeeds.2 hall
          cases hok
        have hnone' : ∀ b ∈ before ++ [a], ¬ b.PublishesAll saved.manifest := by
          intro b hb
          rcases List.mem_append.1 hb with hb | hb
          · exact hnone b hb
          · exact List.mem_singleton.1 hb ▸ hnot
        dsimp only
        split
        · exact (ih hprogress hnone' (nextDelay delay)).cons hnot (List.subset_cons_self _ _)
        · next hstops =>
          apply restored_last hprogress (Or.inr _)
          rintro ⟨hload, hprepares⟩
          obtain ⟨e', herror, hunavailable⟩ := hrestores.retried hload hprepares hnot
          cases herror
          exact hstops hunavailable

end Attempts

section SmallRuns

attribute [local instance] TextTables.ascii

/-- An attempt that reaches the sources of these objects. -/
def reaching (objects : List String) : RestoreAttempt where
  sources c :=
    if (objects.any fun object => c.objectID = text object) = true then ⟨.ok { size := c.size }, false⟩
    else ⟨.error ⟨"no answer", true⟩, false⟩

/-- Two films, of which one is reached at once and the other at the second try. -/
def slowRestore : RestoreRun :=
  restoreSavedSetup id (reaching ["1"]) (2 * 10 ^ 9)
    [.attempt (reaching []), .attempt (reaching ["1", "3"]), .attempt (reaching [])]
    { saved := some oneMatch }

end SmallRuns

end BlackPearl.SetupService
