import BlackPearl.JobStore.Runs

/-!
# The candidates of a planned job

`Plan` writes the candidates of a job once; afterwards only `Advance` changes them, and the row of the
job follows. `PlanStage` says how far a plan has come: the candidates before the selected one have
ended, those after it are pending, and when none is left the job has failed. Every transition that
commits keeps it (`Change.planStage`), because its claim is the snapshot of the row that it changes
(`LeaseInvariant.claim_snapshot`): `Fail` alone would otherwise end a planned job that still has a
selected candidate.
-/

set_option autoImplicit false

namespace BlackPearl.JobStore

open BlackPearl.Library BlackPearl.Domain BlackPearl.Acquisition

/-! ## Lists of candidates -/

section Rows

/-- The ordinals of the rows are consecutive from `start` on. -/
def NumberedFrom (start : ℕ) : List CandidateRow → Prop
  | [] => True
  | r :: rest => r.ordinal = start ∧ NumberedFrom (start + 1) rest

theorem numberedFrom_append {start : ℕ} {rows rows' : List CandidateRow} :
    NumberedFrom start (rows ++ rows') ↔
      NumberedFrom start rows ∧ NumberedFrom (start + rows.length) rows' := by
  induction rows generalizing start with
  | nil => simp [NumberedFrom]
  | cons r rows ih =>
    have hlength : start + (rows.length + 1) = start + 1 + rows.length := by omega
    simp only [List.cons_append, NumberedFrom, List.length_cons, ih, hlength, and_assoc]

theorem NumberedFrom.bounds {start : ℕ} {rows : List CandidateRow} (h : NumberedFrom start rows) :
    ∀ r ∈ rows, (start : ℤ) ≤ r.ordinal ∧ r.ordinal < start + rows.length := by
  induction rows generalizing start with
  | nil => simp
  | cons r rows ih =>
    obtain ⟨hr, hrest⟩ := h
    intro r' hr'
    rcases List.mem_cons.1 hr' with rfl | hmem
    · rw [hr, List.length_cons]
      constructor <;> omega
    · obtain ⟨hlow, hhigh⟩ := ih hrest r' hmem
      rw [List.length_cons]
      constructor <;> omega

theorem NumberedFrom.ordinals {start : ℕ} {rows : List CandidateRow} (h : NumberedFrom start rows) :
    rows.map CandidateRow.ordinal = (List.range' start rows.length).map fun (i : ℕ) => (i : ℤ) := by
  induction rows generalizing start with
  | nil => rfl
  | cons r rows ih =>
    obtain ⟨hr, hrest⟩ := h
    rw [List.map_cons, List.length_cons, List.range'_succ, List.map_cons, hr, ih hrest]

/-- An `UPDATE` of outcomes keeps the ordinals and the selections. -/
theorem numberedFrom_setOutcome {guard : CandidateRow → Bool} {outcome : CandidateOutcome} {start : ℕ}
    {rows : List CandidateRow} :
    NumberedFrom start (Tables.setOutcome guard outcome rows) ↔ NumberedFrom start rows := by
  induction rows generalizing start with
  | nil => rfl
  | cons r rows ih =>
    have hordinal : (if guard r then { r with outcome := outcome } else r).ordinal = r.ordinal := by
      split <;> rfl
    simp only [Tables.setOutcome, List.map_cons, NumberedFrom, hordinal] at ih ⊢
    rw [ih]

theorem setOutcome_identityKeys (guard : CandidateRow → Bool) (outcome : CandidateOutcome)
    (rows : List CandidateRow) : (Tables.setOutcome guard outcome rows).map CandidateRow.identityKey =
      rows.map CandidateRow.identityKey := by
  rw [Tables.setOutcome, List.map_map]
  apply List.map_congr_left
  intro r _
  simp only [Function.comp_apply]
  split <;> rfl

theorem setOutcome_append (guard : CandidateRow → Bool) (outcome : CandidateOutcome)
    (rows rows' : List CandidateRow) : Tables.setOutcome guard outcome (rows ++ rows') =
      Tables.setOutcome guard outcome rows ++ Tables.setOutcome guard outcome rows' :=
  List.map_append

theorem setOutcome_cons (guard : CandidateRow → Bool) (outcome : CandidateOutcome) (r : CandidateRow)
    (rows : List CandidateRow) : Tables.setOutcome guard outcome (r :: rows) =
      (if guard r then { r with outcome := outcome } else r) :: Tables.setOutcome guard outcome rows :=
  rfl

/-- An `UPDATE` whose condition no row satisfies. -/
theorem setOutcome_of_forall {guard : CandidateRow → Bool} {outcome : CandidateOutcome}
    {rows : List CandidateRow} (h : ∀ r ∈ rows, guard r = false) :
    Tables.setOutcome guard outcome rows = rows := by
  have hsame : ∀ r ∈ rows, (if guard r then { r with outcome := outcome } else r) = r := by
    intro r hr
    rw [h r hr]
    rfl
  rw [Tables.setOutcome, List.map_congr_left hsame, List.map_id']

/-- When the rows that come after the ended ones are pending, the next one is the first of them. -/
theorem nextPending_append {ended after : List CandidateRow} {start : ℕ}
    (hended : ∀ r ∈ ended, r.outcome.terminal = true) (hafter : ∀ r ∈ after, r.outcome = .pending)
    (hnumbered : NumberedFrom start after) : nextPending (ended ++ after) = after.head? := by
  have hnone : ended.filter (fun r => r.outcome = .pending) = [] := by
    rw [List.filter_eq_nil_iff]
    intro r hr hpending
    have hterminal := hended r hr
    rw [of_decide_eq_true hpending] at hterminal
    cases hterminal
  have hall : after.filter (fun r => r.outcome = .pending) = after := by
    rw [List.filter_eq_self]
    exact fun r hr => decide_eq_true (hafter r hr)
  rw [nextPending, List.filter_append, hnone, hall, List.nil_append]
  cases after with
  | nil => rfl
  | cons first rest =>
    obtain ⟨hfirst, hrest⟩ := hnumbered
    obtain ⟨m, hm⟩ : ∃ m, (first :: rest).argmin CandidateRow.ordinal = some m := by
      cases hargmin : (first :: rest).argmin CandidateRow.ordinal with
      | none => exact absurd (List.argmin_eq_none.1 hargmin) (List.cons_ne_nil _ _)
      | some m => exact ⟨m, rfl⟩
    have hle : m.ordinal ≤ first.ordinal := List.le_of_mem_argmin List.mem_cons_self hm
    rw [hm, List.head?_cons]
    rcases List.mem_cons.1 (List.argmin_mem hm) with rfl | hmem
    · rfl
    · -- a later row has a larger ordinal
      have hlow := (hrest.bounds m hmem).1
      omega

end Rows

/-! ## The invariant of a plan -/

section Plans

variable [TextTables] [URLParser]

/-- The candidates that `Plan` writes: at most five, numbered, of distinct selections. -/
structure PlanShape (rows : List CandidateRow) : Prop where
  length : rows.length ≤ maximumJobCandidates
  numbered : NumberedFrom 0 rows
  identities : (rows.map CandidateRow.identityKey).Nodup
  settled : ∀ r ∈ rows, ∃ c, SettledCandidate c ∧ r = candidateRow c

/-- How far the plan of a job has come after a number of `Advance`s. -/
inductive PlanStage (row : JobRow) (rows : List CandidateRow) (advances : ℕ) : Prop
  | unplanned (hrows : rows = []) (hordinal : row.selectedCandidateOrdinal = -1)
      (hadvances : advances = 0)
  | current {before after : List CandidateRow} {current : CandidateRow}
      (hrows : rows = before ++ current :: after)
      (hbefore : ∀ r ∈ before, r.outcome.terminal = true)
      (hcurrent : current.outcome = .selected)
      (hafter : ∀ r ∈ after, r.outcome = .pending)
      (hordinal : row.selectedCandidateOrdinal = before.length)
      (hselected : row.selected = current.selection)
      (hhash : row.selectedInfoHash =
        if current.selection.kind = .torrent then current.selection.identity else "")
      (hstate : row.state ∈ [.selected, .preparing, .succeeded, .manualReview])
      (hadvances : advances = before.length)
  | exhausted (hrows : rows ≠ []) (hended : ∀ r ∈ rows, r.outcome.terminal = true)
      (hstate : row.state = .failed)
      (hcleared : row.selected = .empty ∧ row.selectedInfoHash = "" ∧
        row.selectedCandidateOrdinal = -1)
      (hobject : row.createdProvider = "" ∧ row.createdObjectID = "" ∧ row.createdByJob = false)
      (hadvances : advances = rows.length)

omit [TextTables] [URLParser] in
/-- A stage does not depend on the columns of the lease, the attempts and the times. -/
theorem PlanStage.released {row : JobRow} {rows : List CandidateRow} {advances : ℕ} (now : Time)
    (h : PlanStage row rows advances) : PlanStage (released now row) rows advances := by
  cases h with
  | unplanned hrows hordinal hadvances => exact .unplanned hrows hordinal hadvances
  | current hrows hbefore hcurrent hafter hordinal hselected hhash hstate hadvances =>
    exact .current hrows hbefore hcurrent hafter hordinal hselected hhash hstate hadvances
  | exhausted hrows hended hstate hcleared hobject hadvances =>
    exact .exhausted hrows hended hstate hcleared hobject hadvances

omit [TextTables] [URLParser] in
theorem PlanStage.leased {row : JobRow} {rows : List CandidateRow} {advances : ℕ} (now : Time)
    (leaseDuration : ℤ) (h : PlanStage row rows advances) :
    PlanStage (leasedRow row now leaseDuration) rows advances := by
  cases h with
  | unplanned hrows hordinal hadvances => exact .unplanned hrows hordinal hadvances
  | current hrows hbefore hcurrent hafter hordinal hselected hhash hstate hadvances =>
    exact .current hrows hbefore hcurrent hafter hordinal hselected hhash hstate hadvances
  | exhausted hrows hended hstate hcleared hobject hadvances =>
    exact .exhausted hrows hended hstate hcleared hobject hadvances

omit [TextTables] [URLParser] in
/-- A job without candidates stays one when its ordinal does. -/
theorem PlanStage.of_queued {row : JobRow} {rows : List CandidateRow} {advances : ℕ}
    (h : PlanStage row rows advances) (hstate : row.state = .queued) :
    rows = [] ∧ advances = 0 := by
  cases h with
  | unplanned hrows hordinal hadvances => exact ⟨hrows, hadvances⟩
  | current hrows hbefore hcurrent hafter hordinal hselected hhash hin hadvances =>
    rw [hstate] at hin
    simp at hin
  | exhausted hrows hended hfailed hcleared hobject hadvances =>
    rw [hstate] at hfailed
    cases hfailed

/-- What the loop of `validateCandidatePlan` accepts. -/
theorem validateCandidatesFrom_spec : ∀ {candidates validated : List JobCandidate} {index : ℕ}
    {identities : List (SelectionKind × String × String)},
    validateCandidatesFrom index identities candidates = .ok validated →
    (∀ c ∈ validated, SettledCandidate c ∧ c.outcome = if c.ordinal = 0 then .selected else .pending) ∧
      NumberedFrom index (validated.map candidateRow) ∧
      ((validated.map candidateRow).map CandidateRow.identityKey).Nodup ∧
      ∀ key ∈ (validated.map candidateRow).map CandidateRow.identityKey, key ∉ identities
  | [], _, _, _, h => by
      cases h
      simp [NumberedFrom]
  | candidate :: rest, validated, index, identities, h => by
      simp only [validateCandidatesFrom, bind_eq_ok, pure_eq_ok, require_eq_ok] at h
      obtain ⟨first, hfirst, _, hnew, others, hothers, rfl⟩ := h
      obtain ⟨hsettled, hnumbered, hnodup, hfresh⟩ := validateCandidatesFrom_spec hothers
      split at hfirst
      · next c hc =>
        obtain ⟨-, hfirst⟩ := refuse_eq_ok.1 hfirst
        cases hfirst
        obtain ⟨hc, hordinal, houtcome, -⟩ := newJobCandidate_settled hc
        simp only [List.map_cons, List.nodup_cons, List.mem_cons, forall_eq_or_imp]
        refine ⟨⟨⟨hc, ?_⟩, hsettled⟩, ⟨hordinal, hnumbered⟩, ⟨?_, hnodup⟩, hnew, ?_⟩
        · simp only [houtcome, hordinal, Int.natCast_eq_zero]
        · exact fun hmem => hfresh _ hmem List.mem_cons_self
        · exact fun key hkey hin => hfresh key hkey (List.mem_cons_of_mem _ hin)
      · cases hfirst

/-- A validated plan: the first candidate is selected, the others are pending. -/
structure ValidPlan (validated : List JobCandidate) : Prop where
  settled : ∀ c ∈ validated, SettledCandidate c
  shape : PlanShape (validated.map candidateRow)
  first : ∀ c ∈ validated.head?, (candidateRow c).outcome = .selected
  rest : ∀ r ∈ (validated.map candidateRow).tail, r.outcome = .pending

theorem validateCandidatePlan_spec {candidates validated : List JobCandidate}
    (h : validateCandidatePlan candidates = .ok validated) : ValidPlan validated := by
  simp only [validateCandidatePlan, bind_eq_ok, require_eq_ok] at h
  obtain ⟨_, hlength, hvalidated⟩ := h
  obtain ⟨hsettled, hnumbered, hnodup, -⟩ := validateCandidatesFrom_spec hvalidated
  constructor
  · exact fun c hc => (hsettled c hc).1
  · constructor
    · rw [List.length_map, validateCandidatesFrom_length hvalidated]
      omega
    · exact hnumbered
    · exact hnodup
    · intro r hr
      obtain ⟨c, hc, rfl⟩ := List.mem_map.1 hr
      exact ⟨c, (hsettled c hc).1, rfl⟩
  · cases validated with
    | nil => simp
    | cons first rest =>
      obtain ⟨hfirst, -⟩ := hnumbered
      have hordinal : first.ordinal = 0 := hfirst
      obtain ⟨-, houtcome⟩ := hsettled first List.mem_cons_self
      rw [if_pos hordinal] at houtcome
      intro c hc
      cases hc
      exact houtcome
  · cases validated with
    | nil => simp
    | cons first rest =>
      obtain ⟨-, hrest⟩ := hnumbered
      rw [List.map_cons, List.tail_cons]
      intro r hr
      obtain ⟨c, hc, rfl⟩ := List.mem_map.1 hr
      have hlow := (hrest.bounds _ hr).1
      obtain ⟨-, houtcome⟩ := hsettled c (List.mem_cons_of_mem _ hc)
      rw [if_neg] at houtcome
      · exact houtcome
      · intro hzero
        have hzero' : (candidateRow c).ordinal = 0 := hzero
        omega

/-! ## Transitions keep it -/

/-- The shape and the stage of a plan. -/
structure PlanInvariant (row : JobRow) (rows : List CandidateRow) (advances : ℕ) : Prop where
  shape : PlanShape rows
  stage : PlanStage row rows advances

theorem PlanShape.nil : PlanShape [] where
  length := Nat.zero_le _
  numbered := trivial
  identities := List.nodup_nil
  settled := by simp

theorem PlanShape.setOutcome {rows : List CandidateRow} (h : PlanShape rows)
    (guard : CandidateRow → Bool) (outcome : CandidateOutcome) (hadmitted : admittedOutcome outcome = true) :
    PlanShape (Tables.setOutcome guard outcome rows) where
  length := by
    rw [Tables.setOutcome, List.length_map]
    exact h.length
  numbered := numberedFrom_setOutcome.2 h.numbered
  identities := by
    rw [setOutcome_identityKeys]
    exact h.identities
  settled := by
    intro r hr
    obtain ⟨r', hr', rfl⟩ := List.mem_map.1 hr
    obtain ⟨c, hc, rfl⟩ := h.settled r' hr'
    split
    · exact ⟨{ c with outcome := outcome }, ⟨hc.selection, hc.ordinal, hadmitted⟩, rfl⟩
    · exact ⟨c, hc, rfl⟩

/-- What `Advance` asks of its claim and its outcome. -/
theorem validateAdvance_eq_ok {claim : AcquisitionJobClaim} {outcome : CandidateOutcome}
    {terminalCode : JobErrorCode} {now : Time} {ordinal : ℤ}
    (h : validateAdvance claim outcome terminalCode now = .ok ordinal) :
    claim.job.selectedCandidateOrdinal = some ordinal ∧ outcome.terminal = true := by
  unfold validateAdvance at h
  split at h
  · cases h
  · next k hk =>
    simp only [bind_eq_ok, pure_eq_ok, require_eq_ok] at h
    obtain ⟨_, _, _, _, _, hterminal, _, _, _, _, _, _, rfl⟩ := h
    exact ⟨hk, hterminal⟩

/-- A job with a selected ordinal is in the middle of its plan. -/
theorem PlanStage.of_ordinal {row : JobRow} {rows : List CandidateRow} {advances : ℕ} {ordinal : ℤ}
    {claim : AcquisitionJobClaim} (h : PlanStage row rows advances)
    (hread : queryJob row = .ok claim.job)
    (hordinal : claim.job.selectedCandidateOrdinal = some ordinal) :
    ∃ before current after, rows = before ++ current :: after ∧
      (∀ r ∈ before, r.outcome.terminal = true) ∧ current.outcome = .selected ∧
      (∀ r ∈ after, r.outcome = .pending) ∧ ordinal = before.length ∧ advances = before.length := by
  have hcolumn := (queryJob_readFrom hread).ordinal
  rw [hordinal] at hcolumn
  cases h with
  | unplanned hrows hnone hadvances =>
    rw [hnone] at hcolumn
    cases hcolumn
  | current hrows hbefore hcurrent hafter hsome hselected hhash hstate hadvances =>
    rw [hsome, if_pos (Int.natCast_nonneg _)] at hcolumn
    exact ⟨_, _, _, hrows, hbefore, hcurrent, hafter, Option.some.inj hcolumn, hadvances⟩
  | exhausted hrows hended hstate hcleared hobject hadvances =>
    rw [hcleared.2.2] at hcolumn
    cases hcolumn

omit [TextTables] [URLParser] in
/-- Ending the selected candidate. -/
theorem setOutcome_selected {before after : List CandidateRow} {current : CandidateRow}
    (outcome : CandidateOutcome) (hnumbered : NumberedFrom 0 (before ++ current :: after))
    (hbefore : ∀ r ∈ before, r.outcome.terminal = true) (hcurrent : current.outcome = .selected)
    (hafter : ∀ r ∈ after, r.outcome = .pending) :
    Tables.setOutcome (isCandidate before.length .selected) outcome (before ++ current :: after) =
      (before ++ [{ current with outcome := outcome }]) ++ after := by
  have hordinal : current.ordinal = before.length := by
    obtain ⟨-, hcurrent, -⟩ := numberedFrom_append.1 hnumbered
    simpa using hcurrent
  rw [setOutcome_append, setOutcome_cons, setOutcome_of_forall, setOutcome_of_forall, if_pos]
  · simp
  · simp [isCandidate, hordinal, hcurrent]
  · intro r hr
    simp [isCandidate, hafter r hr]
  · intro r hr
    have hne : r.outcome ≠ .selected := by
      intro heq
      have hterminal := hbefore r hr
      rw [heq] at hterminal
      cases hterminal
    simp [isCandidate, hne]

omit [TextTables] [URLParser] in
/-- Selecting the first pending candidate. -/
theorem setOutcome_pending {ended rest : List CandidateRow} {next : CandidateRow}
    (hnumbered : NumberedFrom ended.length (next :: rest))
    (hended : ∀ r ∈ ended, r.outcome.terminal = true) (hnext : next.outcome = .pending) :
    Tables.setOutcome (isCandidate next.ordinal .pending) .selected (ended ++ next :: rest) =
      ended ++ { next with outcome := .selected } :: rest := by
  obtain ⟨hordinal, hrest⟩ := hnumbered
  rw [setOutcome_append, setOutcome_cons, setOutcome_of_forall, setOutcome_of_forall, if_pos]
  · simp [isCandidate, hnext]
  · intro r hr
    have hlow := (hrest.bounds r hr).1
    have hne : r.ordinal ≠ next.ordinal := by omega
    simp [isCandidate, hne]
  · intro r hr
    have hne : r.outcome ≠ .pending := by
      intro heq
      have hterminal := hended r hr
      rw [heq] at hterminal
      cases hterminal
    simp [isCandidate, hne]

/-- A failure that is not left to a manual review is of a job without a plan. -/
theorem fail_unplanned {job validated : AcquisitionJob} {code : JobErrorCode} {now : Time} {ordinal : ℤ}
    (hjob : job.Valid) (hordinal : job.selectedCandidateOrdinal = some ordinal)
    {manualReview : Bool} (h : newAcquisitionJobSnapshot { job with
      state := failureState manualReview
      publishedObjectID := ""
      errorCode := code
      updatedAt := now } = .ok validated) : manualReview = true := by
  have hvalid := newAcquisitionJobSnapshot_valid h
  obtain rfl := newAcquisitionJobSnapshot_same h hjob.request hjob.selection
  have hstage := hvalid.ordinal
  simp only [hordinal, validateSelectedCandidateOrdinal, bind_eq_ok, require_eq_ok] at hstage
  obtain ⟨_, _, _, _, hstate⟩ := hstage
  cases manualReview with
  | true => rfl
  | false => simp [failureState] at hstate

/-- One if the call is an `Advance`. -/
def TransitionCall.advances : TransitionCall → ℕ
  | .advance _ _ => 1
  | _ => 0

/-- The rows after `Advance` has ended the selected candidate. -/
theorem PlanShape.record {claim : AcquisitionJobClaim} {now : Time} {row : JobRow}
    {rows : List CandidateRow} {outcome : CandidateOutcome} {terminalCode : JobErrorCode} {ordinal : ℤ}
    {advances : ℕ} (hshape : PlanShape rows) (hstage : PlanStage row rows advances)
    (hread : queryJob row = .ok claim.job)
    (hvalid : validateAdvance claim outcome terminalCode now = .ok ordinal) :
    ∃ ended after, Tables.setOutcome (isCandidate ordinal .selected) outcome rows = ended ++ after ∧
      PlanShape (ended ++ after) ∧ (∀ r ∈ ended, r.outcome.terminal = true) ∧
      (∀ r ∈ after, r.outcome = .pending) ∧ advances + 1 = ended.length := by
  obtain ⟨hclaim, hterminal⟩ := validateAdvance_eq_ok hvalid
  obtain ⟨before, current, after, rfl, hbefore, hcurrent, hafter, rfl, rfl⟩ :=
    hstage.of_ordinal hread hclaim
  have hrows := setOutcome_selected outcome hshape.numbered hbefore hcurrent hafter
  refine ⟨before ++ [{ current with outcome := outcome }], after, hrows, ?_, ?_, hafter, ?_⟩
  · rw [← hrows]
    exact hshape.setOutcome _ _ (CandidateOutcome.admitted_of_terminal hterminal)
  · intro r hr
    rcases List.mem_append.1 hr with hr | hr
    · exact hbefore r hr
    · rw [List.mem_singleton.1 hr]
      exact hterminal
  · rw [List.length_append, List.length_singleton]

/-- A transition that commits keeps the plan of its job. -/
theorem Change.planInvariant {claim : AcquisitionJobClaim} {now : Time} {row row' : JobRow}
    {rows rows' : List CandidateRow} {call : TransitionCall} {advances : ℕ}
    (hread : queryJob row = .ok claim.job) (hlease : HoldsLease claim now (callStates claim call) row)
    (hinv : PlanInvariant row rows advances) (hchange : Change claim now row rows call row' rows') :
    PlanInvariant row' rows' (advances + call.advances) := by
  obtain ⟨hshape, hstage⟩ := hinv
  cases hchange with
  | select hvalid =>
    -- a queued job has no plan, and this one will never have one
    have hqueued : row.state = .queued := by simpa [callStates] using hlease.state
    obtain ⟨hrows, hadvances⟩ := hstage.of_queued hqueued
    exact ⟨hshape, .unplanned hrows rfl hadvances⟩
  | @plan candidates validated first hvalid hfirst =>
    have hqueued : row.state = .queued := by simpa [callStates] using hlease.state
    obtain ⟨rfl, rfl⟩ := hstage.of_queued hqueued
    obtain ⟨hsettled, hplan, hhead, hrest⟩ := validateCandidatePlan_spec hvalid
    have hselected := hhead first hfirst
    have hrows : [] ++ validated.map candidateRow =
        [] ++ candidateRow first :: (validated.map candidateRow).tail := by
      cases validated with
      | nil => cases hfirst
      | cons c rest =>
        cases hfirst
        rfl
    refine ⟨hplan, .current hrows (by simp) hselected hrest rfl rfl ?_ ?_ rfl⟩
    · exact (hsettled first (List.mem_of_mem_head? hfirst)).selection.fields.infoHash
    · simp [assignPlan]
  | attachPrepared hvalid =>
    have hselected : row.state = .selected := by simpa [callStates] using hlease.state
    cases hstage with
    | unplanned hrows hordinal hadvances => exact ⟨hshape, .unplanned hrows hordinal hadvances⟩
    | current hrows hbefore hcurrent hafter hordinal hselected hhash hstate hadvances =>
      refine ⟨hshape, .current hrows hbefore hcurrent hafter hordinal hselected hhash ?_ hadvances⟩
      simp [assignAttach]
    | exhausted hrows hended hstate hcleared hobject hadvances =>
      rw [hselected] at hstate
      cases hstate
  | @advance outcome terminalCode ordinal pending next hvalid hone hpending hnext =>
    obtain ⟨ended, after, hrows, hrecorded, hended, hafter, hadvances⟩ :=
      hshape.record hstage hread hvalid
    rw [hrows] at hpending ⊢
    have hnumbered := (numberedFrom_append.1 hrecorded.numbered).2
    rw [Nat.zero_add] at hnumbered
    rw [nextPending_append hended hafter hnumbered] at hpending
    cases after with
    | nil => cases hpending
    | cons first rest =>
      cases hpending
      -- the row that is read is the row of a settled candidate
      obtain ⟨c, hc, rfl⟩ := hrecorded.settled pending (by simp)
      rw [queryCandidate_candidateRow hc] at hnext
      obtain rfl := Except.ok.inj hnext
      have hselected := hrecorded.setOutcome (isCandidate c.ordinal .pending) .selected rfl
      have hchosen := setOutcome_pending hnumbered hended (hafter _ List.mem_cons_self)
      have hordinal : c.ordinal = ended.length := hnumbered.1
      rw [show (candidateRow c).ordinal = c.ordinal from rfl] at hchosen
      rw [hchosen] at hselected ⊢
      refine ⟨hselected, .current rfl hended rfl ?_ hordinal rfl hc.selection.fields.infoHash ?_
        hadvances⟩
      · exact fun r hr => hafter r (List.mem_cons_of_mem _ hr)
      · simp [assignAdvance]
  | @exhausted outcome terminalCode ordinal hvalid hone hpending =>
    obtain ⟨ended, after, hrows, hrecorded, hended, hafter, hadvances⟩ :=
      hshape.record hstage hread hvalid
    rw [hrows] at hpending ⊢
    have hnumbered := (numberedFrom_append.1 hrecorded.numbered).2
    rw [nextPending_append hended hafter hnumbered] at hpending
    cases after with
    | cons first rest => cases hpending
    | nil =>
      rw [List.append_nil] at hrecorded ⊢
      refine ⟨hrecorded, .exhausted ?_ hended rfl ⟨rfl, rfl, rfl⟩ ⟨rfl, rfl, rfl⟩ hadvances⟩
      rintro rfl
      cases hadvances
  | deferred hlater hprogress hcode =>
    cases hstage with
    | unplanned hrows hordinal hadvances => exact ⟨hshape, .unplanned hrows hordinal hadvances⟩
    | current hrows hbefore hcurrent hafter hordinal hselected hhash hstate hadvances =>
      exact ⟨hshape, .current hrows hbefore hcurrent hafter hordinal hselected hhash hstate hadvances⟩
    | exhausted hrows hended hstate hcleared hobject hadvances =>
      exact ⟨hshape, .exhausted hrows hended hstate hcleared hobject hadvances⟩
  | succeed hvalid =>
    have hpreparing : row.state = .preparing := by simpa [callStates] using hlease.state
    cases hstage with
    | unplanned hrows hordinal hadvances => exact ⟨hshape, .unplanned hrows hordinal hadvances⟩
    | current hrows hbefore hcurrent hafter hordinal hselected hhash hstate hadvances =>
      refine ⟨hshape, .current hrows hbefore hcurrent hafter hordinal hselected hhash ?_ hadvances⟩
      simp [assignSucceed]
    | exhausted hrows hended hstate hcleared hobject hadvances =>
      rw [hpreparing] at hstate
      cases hstate
  | fail hvalid =>
    have hactive : row.state ∈ anyActive := hlease.state
    cases hstage with
    | unplanned hrows hordinal hadvances => exact ⟨hshape, .unplanned hrows hordinal hadvances⟩
    | current hrows hbefore hcurrent hafter hordinal hselected hhash hstate hadvances =>
      -- the claim is the snapshot of a planned job, which only a manual review may end
      have hclaim := (queryJob_readFrom hread).ordinal
      rw [hordinal, if_pos (Int.natCast_nonneg _)] at hclaim
      obtain rfl := fail_unplanned (queryJob_readFrom hread).valid hclaim hvalid
      refine ⟨hshape, .current hrows hbefore hcurrent hafter hordinal hselected hhash ?_ hadvances⟩
      simp [assignFail, failureState]
    | exhausted hrows hended hstate hcleared hobject hadvances =>
      rw [hstate] at hactive
      simp [anyActive] at hactive

/-! ## Runs -/

/-- How often a job has been advanced. -/
def StoreRun.advances (s : StoreRun) (id : String) : ℕ :=
  ((s.committed.filter fun e => e.job = id).map fun e => e.call.advances).sum

/-- Whether a plan of the job has committed. -/
def StoreRun.Planned (s : StoreRun) (id : String) : Prop :=
  ∃ e ∈ s.committed, e.job = id ∧ ∃ candidates, e.call = .plan candidates

/-- A transition at or after the Unix epoch, or any other call. -/
def TransitionAfterEpoch : StoreLabel → Prop
  | .call _ _ now => 0 ≤ unixMilli now
  | _ => True

/-- A call of a sequence, at or after the Unix epoch if it is a transition. -/
def TimelyCall (_ : StoreRun) (a : StoreLabel) : Prop := isCall a = true ∧ TransitionAfterEpoch a

instance (a : StoreLabel) : Decidable (TransitionAfterEpoch a) :=
  match a with
  | .call _ _ now => inferInstanceAs (Decidable (0 ≤ unixMilli now))
  | .submit _ _ _ | .claim _ _ | .claimUpdate _ _ _ | .claimRead _ | .claimLost _ => .isTrue trivial

instance (s : StoreRun) (a : StoreLabel) : Decidable (TimelyCall s a) :=
  inferInstanceAs (Decidable (isCall a = true ∧ TransitionAfterEpoch a))

/-- Every job has its plan. -/
structure PlansInvariant (s : StoreRun) : Prop where
  plans : ∀ id row, s.store.jobs.lookup id = some row →
    PlanInvariant row (s.store.candidatesOf id) (s.advances id)
  planned : ∀ id, s.Planned id ↔ s.store.candidatesOf id ≠ []

variable {s t : StoreRun}

omit [URLParser] in
theorem StoreRun.advances_commit (s : StoreRun) (store : Tables) (claim : AcquisitionJobClaim)
    (call : TransitionCall) (now : Time) (id : String) :
    (s.commit store claim call now).advances id =
      s.advances id + if id = claim.job.id then call.advances else 0 := by
  simp only [StoreRun.advances, StoreRun.commit, List.filter_append, List.map_append, List.sum_append]
  by_cases hid : id = claim.job.id
  · simp [hid]
  · simp [hid, Ne.symm hid]

omit [URLParser] in
theorem StoreRun.planned_commit (s : StoreRun) (store : Tables) (claim : AcquisitionJobClaim)
    (call : TransitionCall) (now : Time) (id : String) :
    (s.commit store claim call now).Planned id ↔
      s.Planned id ∨ (claim.job.id = id ∧ ∃ candidates, call = .plan candidates) := by
  simp only [StoreRun.Planned, StoreRun.commit, List.mem_append, List.mem_singleton]
  constructor
  · rintro ⟨e, he | rfl, hrest⟩
    · exact Or.inl ⟨e, he, hrest⟩
    · exact Or.inr hrest
  · rintro (⟨e, he, hrest⟩ | hrest)
    · exact ⟨e, Or.inl he, hrest⟩
    · exact ⟨_, Or.inr rfl, hrest⟩

/-- Only `Plan` writes the first candidate. -/
theorem Change.rows_eq_nil {claim : AcquisitionJobClaim} {now : Time} {row row' : JobRow}
    {rows rows' : List CandidateRow} {call : TransitionCall}
    (h : Change claim now row rows call row' rows') :
    rows' ≠ [] ↔ rows ≠ [] ∨ ∃ candidates, call = .plan candidates := by
  cases h with
  | @plan candidates validated first hvalid hfirst =>
    have hne : validated ≠ [] := by
      rintro rfl
      cases hfirst
    simp [hne]
  | select hvalid => simp
  | attachPrepared hvalid => simp
  | advance hvalid hone hpending hnext => simp [Tables.setOutcome]
  | exhausted hvalid hone hpending => simp [Tables.setOutcome]
  | deferred hlater hprogress hcode => simp
  | succeed hvalid => simp
  | fail hvalid => simp

/-- A job that is not stored has no candidates and has not been advanced. -/
theorem PlansInvariant.unstored (hinv : PlansInvariant s) (hleases : LeaseInvariant s) {id : String}
    (hnone : s.store.jobs.lookup id = none) :
    s.store.candidatesOf id = [] ∧ s.advances id = 0 := by
  have hnot : ∀ e ∈ s.committed, e.job ≠ id := by
    rintro e he rfl
    obtain ⟨row, hrow, -⟩ := hleases.lease_of_commit ⟨e, he, rfl, rfl⟩
    rw [hnone] at hrow
    cases hrow
  constructor
  · by_contra hne
    obtain ⟨e, he, hid, -⟩ := (hinv.planned id).2 hne
    exact hnot e he hid
  · have hfilter : s.committed.filter (fun e => e.job = id) = [] := by
      rw [List.filter_eq_nil_iff]
      exact fun e he hid => hnot e he (of_decide_eq_true hid)
    rw [StoreRun.advances, hfilter]
    rfl

/-- Every move keeps every plan. -/
theorem StoreMove.plansInvariant {a : StoreLabel} (hleases : LeaseInvariant s)
    (hpunctual : Punctual s a) (hinv : PlansInvariant s) (hmove : StoreMove s t a) :
    PlansInvariant t := by
  cases hmove with
  | same hstore hleases' hcommitted =>
    constructor
    · intro id row hrow
      rw [hstore] at hrow ⊢
      have hkept := hinv.plans id row hrow
      rwa [StoreRun.advances, hcommitted]
    · intro id
      rw [hstore, StoreRun.Planned, hcommitted]
      exact hinv.planned id
  | @submitted id request now queued hsubmitted hleases' hcommitted =>
    have hcandidates : ∀ id', t.store.candidatesOf id' = s.store.candidatesOf id' := by
      intro id'
      rw [hsubmitted.written]
      rfl
    constructor
    · intro id' row hrow
      rw [hsubmitted.written, Table.lookup_insert] at hrow
      rw [hcandidates, StoreRun.advances, hcommitted]
      split at hrow
      · next heq =>
        -- the new job has no candidates yet
        cases hrow
        obtain ⟨hrows, hadvances⟩ := hinv.unstored hleases (heq ▸ hsubmitted.fresh)
        rw [StoreRun.advances] at hadvances
        rw [hrows, hadvances]
        exact ⟨.nil, .unplanned rfl rfl rfl⟩
      · exact hinv.plans id' row hrow
    · intro id'
      rw [hcandidates, StoreRun.Planned, hcommitted]
      exact hinv.planned id'
  | @leased _ id row now leaseDuration hlabel hnow hrow heligible hstore hleases' hcommitted =>
    have hcandidates : ∀ id', t.store.candidatesOf id' = s.store.candidatesOf id' := by
      intro id'
      rw [hstore]
      rfl
    obtain rfl := hleases.keys id row hrow
    constructor
    · intro id' row' hrow'
      rw [hstore, Table.lookup_insert] at hrow'
      rw [hcandidates, StoreRun.advances, hcommitted]
      split at hrow'
      · next heq =>
        cases hrow'
        obtain ⟨hshape, hstage⟩ := hinv.plans row.id row hrow
        rw [heq]
        exact ⟨hshape, hstage.leased now leaseDuration⟩
      · exact hinv.plans id' row' hrow'
    · intro id'
      rw [hcandidates, StoreRun.Planned, hcommitted]
      exact hinv.planned id'
  | @committed position call now claim row row' rows' hclaim hchange ht =>
    have hread := hleases.claim_snapshot hpunctual hclaim hchange.lookup hchange.lease
    have hid : row'.id = claim.job.id := by
      rw [hchange.change.frame.1]
      exact hleases.keys _ _ hchange.lookup
    constructor
    · intro id row'' hrow
      rw [hchange.jobs, Table.lookup_insert] at hrow
      rw [hchange.candidates id, ht, StoreRun.advances_commit]
      have hreleased : (released now row').id = claim.job.id := hid
      rw [hreleased] at hrow
      split at hrow
      · next heq =>
        cases hrow
        have hplan := hinv.plans claim.job.id row hchange.lookup
        obtain ⟨hshape, hstage⟩ := hchange.change.planInvariant hread hchange.lease hplan
        rw [if_pos heq, if_pos heq, heq]
        exact ⟨hshape, hstage.released now⟩
      · next hne =>
        rw [if_neg hne, if_neg hne]
        exact hinv.plans id row'' hrow
    · intro id
      rw [hchange.candidates id, ht, StoreRun.planned_commit, hinv.planned id]
      split
      · next heq =>
        rw [hchange.change.rows_eq_nil, heq]
        simp
      · next hne =>
        simp [Ne.symm hne]

omit [URLParser] in
theorem TimelyCall.punctual {a : StoreLabel} (ha : TimelyCall s a) : Punctual s a := by
  cases a with
  | call position call now => exact fun _ _ => Or.inl ha.2
  | _ => trivial

/-- In a sequence of calls every job has its plan. -/
theorem plansInvariant_of_calls {P : StoreRun → StoreLabel → Prop}
    (hcall : ∀ s a, P s a → isCall a = true) (hpunctual : ∀ s a, P s a → Punctual s a)
    (hs : storeSystem.ReachableBy P s) : LeaseInvariant s ∧ PlansInvariant s := by
  have hleases : ∀ s, storeSystem.ReachableBy P s → LeaseInvariant s := fun s hs =>
    leaseInvariant_of_calls hcall hpunctual hs
  refine ⟨hleases s hs, hs.invariant_under hleases ?_ ?_⟩
  · rintro _ ⟨clock, rfl⟩
    constructor
    · simp [emptyRun, Tables.empty]
    · simp [emptyRun, Tables.empty, StoreRun.Planned, Tables.candidatesOf]
  · intro s a t hlease hinv ha hstep
    exact (storeStep_move hstep).plansInvariant hlease (hpunctual s a ha) hinv

/-- What a job and its candidates satisfy together. -/
structure CandidatePlan (row : JobRow) (rows : List CandidateRow) : Prop where
  length : 1 ≤ rows.length ∧ rows.length ≤ 5
  ordinals : rows.map CandidateRow.ordinal = (List.range rows.length).map fun (i : ℕ) => (i : ℤ)
  identities : (rows.map CandidateRow.identityKey).Nodup
  stages : row.state ∈ [.selected, .preparing, .succeeded, .manualReview, .failed]
  selected : row.state ≠ .failed → ∃ r ∈ rows, r.outcome = .selected ∧
    (∀ r' ∈ rows, r'.outcome = .selected → r' = r) ∧
    r.ordinal = row.selectedCandidateOrdinal ∧ r.selection = row.selected ∧
    row.selectedInfoHash = (if r.selection.kind = .torrent then r.selection.identity else "") ∧
    ∀ r' ∈ rows, (r'.ordinal < r.ordinal → r'.outcome.terminal = true) ∧
      (r.ordinal < r'.ordinal → r'.outcome = .pending)
  failed : row.state = .failed → (∀ r ∈ rows, r.outcome.terminal = true) ∧
    row.selected = .empty ∧ row.selectedInfoHash = "" ∧ row.selectedCandidateOrdinal = -1 ∧
    row.createdProvider = "" ∧ row.createdObjectID = "" ∧ row.createdByJob = false

/-- The invariant of a plan, read off the rows. -/
theorem PlanInvariant.candidatePlan {row : JobRow} {rows : List CandidateRow} {advances : ℕ}
    (h : PlanInvariant row rows advances) (hrows : rows ≠ []) : CandidatePlan row rows := by
  obtain ⟨hshape, hstage⟩ := h
  have hlength : 1 ≤ rows.length ∧ rows.length ≤ 5 :=
    ⟨List.length_pos_iff.2 hrows, hshape.length⟩
  have hordinals := hshape.numbered.ordinals
  rw [← List.range_eq_range'] at hordinals
  cases hstage with
  | unplanned hnil hordinal hadvances => exact absurd hnil hrows
  | @current before after current heq hbefore hcurrent hafter hordinal hselected hhash hstate hadvances =>
    subst heq
    refine ⟨hlength, hordinals, hshape.identities, ?_, fun _ => ?_, fun hfailed => ?_⟩
    · simp only [List.mem_cons, List.not_mem_nil, or_false] at hstate ⊢
      tauto
    · obtain ⟨hlow, hcurrentOrdinal, hhigh⟩ := numberedFrom_append.1 hshape.numbered
      rw [Nat.zero_add] at hcurrentOrdinal hhigh
      refine ⟨current, by simp, hcurrent, ?_, hcurrentOrdinal.trans hordinal.symm, hselected.symm,
        hhash, ?_⟩
      · -- the other outcomes are terminal or pending
        intro r hr houtcome
        rcases List.mem_append.1 hr with hr | hr
        · have hterminal := hbefore r hr
          rw [houtcome] at hterminal
          cases hterminal
        · rcases List.mem_cons.1 hr with rfl | hr
          · rfl
          · have hpending := hafter r hr
            rw [houtcome] at hpending
            cases hpending
      · intro r hr
        rcases List.mem_append.1 hr with hr | hr
        · have hbound := (hlow.bounds r hr).2
          constructor
          · exact fun _ => hbefore r hr
          · intro hlt
            omega
        · rcases List.mem_cons.1 hr with rfl | hr
          · constructor
            · exact fun hlt => absurd hlt (lt_irrefl _)
            · exact fun hlt => absurd hlt (lt_irrefl _)
          · have hbound := (hhigh.bounds r hr).1
            constructor
            · intro hlt
              omega
            · exact fun _ => hafter r hr
    · rw [hfailed] at hstate
      simp at hstate
  | exhausted hne hended hstate hcleared hobject hadvances =>
    refine ⟨hlength, hordinals, hshape.identities, ?_, fun hnot => absurd hstate hnot, fun _ => ?_⟩
    · rw [hstate]
      simp
    · exact ⟨hended, hcleared.1, hcleared.2.1, hcleared.2.2, hobject⟩

omit [TextTables] [URLParser] in
/-- The ordinal of a job is the number of its `Advance`s, unless it has no selected candidate. -/
theorem PlanStage.ordinal {row : JobRow} {rows : List CandidateRow} {advances : ℕ}
    (h : PlanStage row rows advances) : advances ≤ rows.length ∧
      (row.selectedCandidateOrdinal = -1 ∧ (rows = [] ∨ row.state = .failed) ∨
        row.selectedCandidateOrdinal = advances ∧ rows ≠ []) := by
  cases h with
  | unplanned hrows hordinal hadvances =>
    subst hrows
    exact ⟨hadvances.le, Or.inl ⟨hordinal, Or.inl rfl⟩⟩
  | current hrows hbefore hcurrent hafter hordinal hselected hhash hstate hadvances =>
    subst hrows
    constructor
    · rw [hadvances, List.length_append]
      omega
    · exact Or.inr ⟨hordinal.trans (congrArg Nat.cast hadvances.symm), by simp⟩
  | exhausted hrows hended hstate hcleared hobject hadvances =>
    exact ⟨hadvances.le, Or.inl ⟨hcleared.2.2, Or.inr hstate⟩⟩

/-- A run keeps the stored jobs and the committed transitions. -/
def KeepsHistory (s t : StoreRun) : Prop :=
  s.committed <+: t.committed ∧
    ∀ id, (s.store.jobs.lookup id).isSome = true → (t.store.jobs.lookup id).isSome = true

theorem storeStep_keepsHistory {a : StoreLabel} (hstep : storeStep s a = some t) : KeepsHistory s t := by
  have hinserted : ∀ (jobs : Table String JobRow) (row : JobRow) (id : String),
      (jobs.lookup id).isSome = true → ((jobs.insert row.id row).lookup id).isSome = true := by
    intro jobs row id hid
    rw [Table.lookup_insert]
    split
    · rfl
    · exact hid
  cases storeStep_move hstep with
  | same hstore hleases' hcommitted => exact ⟨hcommitted ▸ List.prefix_refl _, by rw [hstore]; exact fun _ h => h⟩
  | @submitted id request now queued hsubmitted hleases' hcommitted =>
    refine ⟨hcommitted ▸ List.prefix_refl _, ?_⟩
    rw [hsubmitted.written]
    exact hinserted _ (queuedRow queued (unixMilli now))
  | leased hlabel hnow hrow heligible hstore hleases hcommitted =>
    refine ⟨hcommitted ▸ List.prefix_refl _, ?_⟩
    rw [hstore]
    exact hinserted _ (leasedRow _ _ _)
  | committed hclaim hchange ht =>
    constructor
    · rw [ht]
      exact List.prefix_append _ _
    · rw [hchange.jobs]
      exact hinserted _ _

omit [URLParser] in
theorem KeepsHistory.advances_le (h : KeepsHistory s t) (id : String) :
    s.advances id ≤ t.advances id := by
  obtain ⟨later, hlater⟩ := h.1
  simp only [StoreRun.advances, ← hlater, List.filter_append, List.map_append, List.sum_append]
  exact Nat.le_add_right _ _

/-- The candidates of every job, in one state and along a run to another. -/
structure PlansHold (s t : StoreRun) : Prop where
  plans : ∀ id, s.store.candidatesOf id ≠ [] →
    ∃ row, s.store.jobs.lookup id = some row ∧ CandidatePlan row (s.store.candidatesOf id)
  planned : ∀ id, s.Planned id ↔ s.store.candidatesOf id ≠ []
  advances : ∀ id, s.advances id ≤ (s.store.candidatesOf id).length
  increasing : ∀ id row, s.store.jobs.lookup id = some row → ∃ row', t.store.jobs.lookup id = some row' ∧
    (row.selectedCandidateOrdinal ≤ row'.selectedCandidateOrdinal ∨ row'.state = .failed)

/-- In every sequence of timely calls the candidates of a planned job and its row agree, and the
selected ordinal does not decrease before the job fails. -/
theorem candidate_plans_hold (hs : storeSystem.ReachableBy TimelyCall s)
    (hreaches : storeSystem.ReachesBy TimelyCall s t) : PlansHold s t := by
  obtain ⟨hleases, hinv⟩ := plansInvariant_of_calls (fun _ _ ha => ha.1) (fun _ _ ha => ha.punctual) hs
  obtain ⟨-, hinv'⟩ := plansInvariant_of_calls (fun _ _ ha => ha.1) (fun _ _ ha => ha.punctual)
    (hs.reaches hreaches)
  have hstored : ∀ id, s.store.jobs.lookup id = none → s.store.candidatesOf id = [] ∧ s.advances id = 0 :=
    fun id hnone => hinv.unstored hleases hnone
  have hkeeps : KeepsHistory s t := by
    apply hreaches.related hs
    · exact fun s => ⟨List.prefix_refl _, fun _ h => h⟩
    · exact fun s t u hst htu => ⟨hst.1.trans htu.1, fun id hid => htu.2 id (hst.2 id hid)⟩
    · exact fun s a t _ _ hstep => storeStep_keepsHistory hstep
  constructor
  · intro id hrows
    cases hrow : s.store.jobs.lookup id with
    | none => exact absurd (hstored id hrow).1 hrows
    | some row => exact ⟨row, rfl, (hinv.plans id row hrow).candidatePlan hrows⟩
  · exact hinv.planned
  · intro id
    cases hrow : s.store.jobs.lookup id with
    | none =>
      rw [(hstored id hrow).2]
      exact Nat.zero_le _
    | some row => exact (hinv.plans id row hrow).stage.ordinal.1
  · intro id row hrow
    obtain ⟨row', hrow'⟩ := Option.isSome_iff_exists.1 (hkeeps.2 id (by rw [hrow]; rfl))
    refine ⟨row', hrow', ?_⟩
    have hle := hkeeps.advances_le id
    obtain ⟨-, hstage⟩ := (hinv.plans id row hrow).stage.ordinal
    obtain ⟨-, hstage'⟩ := (hinv'.plans id row' hrow').stage.ordinal
    rcases hstage with ⟨hnone, -⟩ | ⟨hordinal, hrows⟩
    · -- nothing was selected
      rcases hstage' with ⟨hnone', -⟩ | ⟨hordinal', -⟩
      · exact Or.inl (hnone.trans hnone'.symm).le
      · left
        omega
    · rcases hstage' with ⟨-, hempty | hfailed⟩ | ⟨hordinal', -⟩
      · -- a planned job stays one
        obtain ⟨e, he, hplan⟩ := (hinv.planned id).2 hrows
        exact absurd hempty ((hinv'.planned id).1 ⟨e, hkeeps.1.subset he, hplan⟩)
      · exact Or.inr hfailed
      · left
        omega

end Plans

/-! ### A small run -/

section SmallRuns

attribute [local instance] TextTables.ascii URLParser.refuseAll

/-- The selection of a release with the given hash. -/
def smallSelection (infoHash : String) : JobSelection :=
  match newRelease ⟨"torbox", "torrent:" ++ infoHash, "Movie 2020", .torrent, 7, "indexer", infoHash,
    "", "", some 3⟩ with
  | .ok release => ⟨.torrent, release, .zero⟩
  | .error _ => .zero

def smallPlan : List JobCandidate :=
  [⟨smallSelection "0123456789012345678901234567890123456789", 0, .selected⟩,
    ⟨smallSelection "9876543210987654321098765432109876543210", 1, .pending⟩]

/-- Submit a job, lease it for a minute, and plan it. -/
def planLabels (submitted claimed planned : ℤ) : List StoreLabel :=
  [.submit smallJob smallRequest (atSecond submitted), .claim (atSecond claimed) (atSecond 60),
    .call 0 (.plan smallPlan) (atSecond planned)]

/-- Lease the job again, and go on to its second candidate. -/
def advanceLabels : List StoreLabel :=
  [.claim (atSecond 20) (atSecond 60), .call 1 (.advance .missing .noRelease) (atSecond 30)]

theorem candidate_plans_hold_small : ∃ s t,
    storeSystem.runChecked TimelyCall (emptyRun 0) (planLabels 0 5 10) = some s ∧
    storeSystem.runChecked TimelyCall s advanceLabels = some t ∧
    (t.store.candidatesOf smallJob).map CandidateRow.outcome = [.missing, .selected] ∧
    PlansHold s t := by
  have hvalues : ((storeSystem.runChecked TimelyCall (emptyRun 0) (planLabels 0 5 10)).bind fun s =>
      (storeSystem.runChecked TimelyCall s advanceLabels).map fun t =>
        (t.store.candidatesOf smallJob).map CandidateRow.outcome) = some [.missing, .selected] := by
    decide +kernel
  simp only [Option.bind_eq_some_iff, Option.map_eq_some_iff] at hvalues
  obtain ⟨s, hs, t, ht, houtcomes⟩ := hvalues
  exact ⟨s, t, hs, ht, houtcomes, candidate_plans_hold
    (System.ReachableBy.reaches (.init ⟨0, rfl⟩) (System.reachesBy_of_runChecked hs))
    (System.reachesBy_of_runChecked ht)⟩

/-- With a clock before the Unix epoch, a claim that has been used passes for a leased one: a planned
job fails, and its candidate stays selected. -/
theorem candidate_plans_before_epoch : ¬ ∀ s t, storeSystem.ReachableBy (fun _ a => isCall a = true) s →
    storeSystem.ReachesBy (fun _ a => isCall a = true) s t → PlansHold s t := by
  intro hclaim
  have hvalues : ((storeSystem.runChecked (fun _ a => isCall a = true) (emptyRun 0)
      (planLabels (-1000) 0 10 ++ [.call 0 (.fail .noRelease false) (atSecond (-500))])).bind fun s =>
        (s.store.jobs.lookup smallJob).map fun row =>
          (row.state, (s.store.candidatesOf smallJob).map CandidateRow.outcome)) =
      some (.failed, [.selected, .pending]) := by
    decide +kernel
  simp only [Option.bind_eq_some_iff, Option.map_eq_some_iff, Prod.mk.injEq] at hvalues
  obtain ⟨s, hs, row, hrow, hstate, houtcomes⟩ := hvalues
  have hplans := hclaim s s
    (System.ReachableBy.reaches (.init ⟨0, rfl⟩) (System.reachesBy_of_runChecked hs)) .refl
  have hrows : s.store.candidatesOf smallJob ≠ [] := by
    intro hnil
    rw [hnil] at houtcomes
    cases houtcomes
  obtain ⟨row', hrow', hplan⟩ := hplans.plans smallJob hrows
  rw [hrow] at hrow'
  obtain rfl := Option.some.inj hrow'
  -- the candidate that is still selected should have ended
  obtain ⟨r, hr, houtcome⟩ : ∃ r ∈ s.store.candidatesOf smallJob, r.outcome = .selected := by
    have hmem : CandidateOutcome.selected ∈ (s.store.candidatesOf smallJob).map CandidateRow.outcome := by
      rw [houtcomes]
      exact List.mem_cons_self
    obtain ⟨r, hr, houtcome⟩ := List.mem_map.1 hmem
    exact ⟨r, hr, houtcome⟩
  have hterminal := (hplan.failed hstate).1 r hr
  rw [houtcome] at hterminal
  cases hterminal

end SmallRuns

end BlackPearl.JobStore
