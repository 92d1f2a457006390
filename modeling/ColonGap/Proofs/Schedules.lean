import ColonGap.Proofs.Writes
import Mathlib.Algebra.Order.BigOperators.Group.Finset
import Mathlib.Data.List.FinRange
import Mathlib.Data.List.ReduceOption

/-!
# Workers

The targets of a run are processed by workers, of which no more than a limit are at work at a time.
A worker is started, reads its target, writes what comes of it, and stores its result in a slot of
its own; between any two of these steps others may take theirs. `Pool.step?` is one step of one
worker, and a *schedule* is a list of workers that take a step each. Whatever the schedule, it comes
to an end, at the latest after four steps for each target, no worker is left waiting, and what there
is then is what processing the targets in order gives (`run_schedule`).

## The invariant

`Pool.Sound` says what a pool is like between two steps, in terms of the files and the input that
there were at the start. Each worker has what it would have if it were the only one, because its
target is at a place of its own and at most one of the workers reads standard input. The files are
those of the start with what some workers wrote, in some order, and the order does not matter
(`deposits_perm`).
-/

namespace ColonGap

namespace Run

/-- Targets to process, what there is at the start, what the file system says to texts that are
written, and how many workers may be at it at a time. -/
structure Job where
  mode : Mode
  settings : List Setting
  targets : List Target
  workspace : Workspace
  stdin : Except Bytes Bytes
  faults : WriteFaults
  limit : Nat
  limit_pos : 0 < limit

/-- How far a worker is. -/
inductive Phase where
  | waiting
  | started
  /-- The target has been read. -/
  | read (source : Except TargetError Bytes)
  /-- What was to be written has been written. -/
  | written (result : Result)
  /-- The result has been stored. -/
  | done

namespace Phase

/-- The number of steps that a worker has taken. -/
def steps : Phase → Nat
  | waiting => 0
  | started => 1
  | read _ => 2
  | written _ => 3
  | done => 4

@[simp] theorem steps_waiting : waiting.steps = 0 := rfl

@[simp] theorem steps_started : started.steps = 1 := rfl

@[simp] theorem steps_read (source : Except TargetError Bytes) : (read source).steps = 2 := rfl

@[simp] theorem steps_written (result : Result) : (written result).steps = 3 := rfl

@[simp] theorem steps_done : done.steps = 4 := rfl

theorem steps_le (phase : Phase) : phase.steps ≤ 4 := by
  cases phase <;> simp

end Phase

/-- What the workers share, and how far each of them is. -/
structure Pool (n : Nat) where
  workspace : Workspace
  /-- What is left of standard input. -/
  stdin : Except Bytes Bytes
  phase : Fin n → Phase
  /-- The results that have been stored. -/
  slots : Fin n → Option Result
  /-- What has been logged. -/
  log : List Log.Entry

namespace Job

variable (job : Job)

/-- The target of a worker. -/
def target (i : Fin job.targets.length) : Target :=
  job.targets.get i

/-- What a worker reads if it is the only one. -/
def source (i : Fin job.targets.length) : Except TargetError Bytes :=
  sourceOf job.workspace job.stdin (job.target i)

/-- The result of a worker if it is the only one. -/
def result (i : Fin job.targets.length) : Result :=
  resultOf job.mode job.settings job.faults (job.target i) (job.source i)

/-- The files when some targets have been written. -/
def deposits (targets : List Target) : Workspace :=
  targets.foldl (depositFrom job.mode job.settings job.stdin job.faults job.workspace) job.workspace

/-- The targets of different workers are at different places. -/
theorem apart (h : job.targets.Pairwise (ApartIn job.workspace)) {i j : Fin job.targets.length}
    (hne : i ≠ j) : ApartIn job.workspace (job.target i) (job.target j) := by
  rw [List.pairwise_iff_get] at h
  rcases lt_or_gt_of_ne hne with hlt | hlt
  · exact h i j hlt
  · exact (h j i hlt).symm

/-- No two workers read standard input. -/
theorem eq_of_isStdin (h : job.targets.Pairwise fun s t ↦ s.isStdin = true → t.isStdin = false)
    {i j : Fin job.targets.length} (hi : (job.target i).isStdin = true)
    (hj : (job.target j).isStdin = true) : i = j := by
  rw [List.pairwise_iff_get] at h
  by_contra hne
  rcases lt_or_gt_of_ne hne with hlt | hlt
  · exact absurd hj (by simpa [target] using h i j hlt hi)
  · exact absurd hi (by simpa [target] using h j i hlt hj)

theorem map_target {α : Type} (f : Target → α) :
    (List.finRange job.targets.length).map (fun i ↦ f (job.target i)) = job.targets.map f := by
  conv_rhs => rw [← List.map_get_finRange job.targets, List.map_map]
  rfl

/-- The pool before any worker is started. -/
def start : Pool job.targets.length :=
  ⟨job.workspace, job.stdin, fun _ ↦ .waiting, fun _ ↦ none, []⟩

end Job

namespace Pool

variable {n : Nat}

/-- The number of workers that are at work. -/
def active (p : Pool n) : Nat :=
  (List.finRange n).countP fun i ↦ 0 < (p.phase i).steps && (p.phase i).steps < 4

/-- Take a worker to its next phase. -/
def enter (p : Pool n) (i : Fin n) (phase : Phase) : Pool n :=
  { p with phase := Function.update p.phase i phase }

/-- The next step of a worker, unless it is done or has to wait. Workers are started in order. Who
reads standard input leaves nothing of it. -/
def step? (job : Job) (p : Pool job.targets.length) (i : Fin job.targets.length) :
    Option (Pool job.targets.length) :=
  let t := job.target i
  match p.phase i with
  | .waiting =>
    if (∀ j < i, 0 < (p.phase j).steps) ∧ p.active < job.limit then some (p.enter i .started)
    else none
  | .started =>
    some { p.enter i (.read (sourceOf p.workspace p.stdin t)) with
      stdin := if t.isStdin then .ok [] else p.stdin
      log := p.log ++ [lintingEntry t] }
  | .read source =>
    some { p.enter i (.written (resultOf job.mode job.settings job.faults t source)) with
      workspace := deposit p.workspace t (written? job.mode job.settings job.faults t source) }
  | .written result =>
    some { p.enter i .done with slots := Function.update p.slots i (some result) }
  | .done => none

/-- What a schedule leads to, if each worker in it can take a step when its turn comes. -/
def run? (job : Job) (p : Pool job.targets.length) (schedule : List (Fin job.targets.length)) :
    Option (Pool job.targets.length) :=
  schedule.foldlM (step? job) p

/-- A step of a worker, by what it had done before. -/
inductive Steps (job : Job) (i : Fin job.targets.length) (p : Pool job.targets.length) :
    Pool job.targets.length → Prop
  | start (h : p.phase i = .waiting) : Steps job i p (p.enter i .started)
  | read (h : p.phase i = .started) :
      Steps job i p
        { p.enter i (.read (sourceOf p.workspace p.stdin (job.target i))) with
          stdin := if (job.target i).isStdin then .ok [] else p.stdin
          log := p.log ++ [lintingEntry (job.target i)] }
  | write {source : Except TargetError Bytes} (h : p.phase i = .read source) :
      Steps job i p
        { p.enter i (.written
          (resultOf job.mode job.settings job.faults (job.target i) source)) with
          workspace := deposit p.workspace (job.target i)
            (written? job.mode job.settings job.faults (job.target i) source) }
  | store {result : Result} (h : p.phase i = .written result) :
      Steps job i p { p.enter i .done with slots := Function.update p.slots i (some result) }

variable {job : Job} {p p' : Pool job.targets.length} {i : Fin job.targets.length}

/-- A step of a worker is one of four. -/
theorem steps_of_step? (h : step? job p i = some p') : Steps job i p p' := by
  rw [step?] at h
  dsimp only at h
  split at h
  case h_1 hphase =>
    split at h
    · obtain rfl := Option.some.inj h
      exact .start hphase
    · cases h
  case h_2 hphase =>
    obtain rfl := Option.some.inj h
    exact .read hphase
  case h_3 hphase =>
    obtain rfl := Option.some.inj h
    exact .write hphase
  case h_4 hphase =>
    obtain rfl := Option.some.inj h
    exact .store hphase
  case h_5 => cases h

theorem run?_cons {schedule : List (Fin job.targets.length)}
    (h : run? job p (i :: schedule) = some p') :
    ∃ next, step? job p i = some next ∧ run? job next schedule = some p' := by
  rwa [run?, List.foldlM_cons, Option.bind_eq_bind, Option.bind_eq_some_iff] at h

/-! ### Every schedule ends -/

/-- The number of steps that all workers have taken. -/
def steps (p : Pool n) : Nat :=
  ∑ i, (p.phase i).steps

/-- A worker that enters the next phase has taken one more step. -/
theorem steps_enter (p : Pool n) (i : Fin n) {phase : Phase}
    (h : phase.steps = (p.phase i).steps + 1) : (p.enter i phase).steps = p.steps + 1 := by
  have hothers : ∀ j ∈ Finset.univ.erase i, ((p.enter i phase).phase j).steps = (p.phase j).steps :=
    fun j hj ↦ by simp [enter, Function.update_of_ne (Finset.ne_of_mem_erase hj)]
  rw [steps, steps, ← Finset.add_sum_erase _ _ (Finset.mem_univ i),
    ← Finset.add_sum_erase _ (fun j ↦ (p.phase j).steps) (Finset.mem_univ i),
    Finset.sum_congr rfl hothers]
  simp only [enter, Function.update_self, h]
  omega

/-- Each step counts. -/
theorem Steps.steps (h : Steps job i p p') : p'.steps = p.steps + 1 := by
  cases h with
  | start h => exact p.steps_enter i (by rw [h]; rfl)
  | read h => exact p.steps_enter i (by rw [h]; rfl)
  | write h => exact p.steps_enter i (by rw [h]; rfl)
  | store h => exact p.steps_enter i (by rw [h]; rfl)

/-- There are at most four steps for each target. -/
theorem steps_le (p : Pool n) : p.steps ≤ 4 * n := by
  have hsum := Finset.sum_le_card_nsmul Finset.univ (fun i ↦ (p.phase i).steps) 4
    fun i _ ↦ (p.phase i).steps_le
  rwa [Finset.card_fin, Nat.nsmul_eq_mul, Nat.mul_comm] at hsum

/-- A schedule counts the steps. -/
theorem steps_run? {schedule : List (Fin job.targets.length)} (h : run? job p schedule = some p') :
    p'.steps = p.steps + schedule.length := by
  induction schedule generalizing p with
  | nil =>
    obtain rfl := Option.some.inj h
    rfl
  | cons i schedule ih =>
    obtain ⟨next, hstep, hrest⟩ := run?_cons h
    rw [ih hrest, (steps_of_step? hstep).steps, List.length_cons]
    omega

/-- **No worker is left waiting.** If no worker can take a step then all are done. -/
theorem done_of_stuck (h : ∀ i, step? job p i = none) (i : Fin job.targets.length) :
    p.phase i = .done := by
  have hends : ∀ i, p.phase i = .waiting ∨ p.phase i = .done := by
    intro i
    have hi := h i
    rw [step?] at hi
    dsimp only at hi
    split at hi
    case h_1 hphase => exact .inl hphase
    case h_2 => cases hi
    case h_3 => cases hi
    case h_4 => cases hi
    case h_5 hphase => exact .inr hphase
  have hidle : p.active = 0 := by
    rw [active, List.countP_eq_zero]
    intro i _
    rcases hends i with hphase | hphase <;> simp [hphase]
  -- The first one that waits could be started.
  induction hval : i.val using Nat.strongRecOn generalizing i with
  | ind k ih =>
    refine (hends i).resolve_left fun hwaiting ↦ ?_
    have hbefore : ∀ j < i, 0 < (p.phase j).steps := by
      intro j hj
      rw [ih j.val (hval ▸ hj) j rfl]
      decide
    have hfree : p.active < job.limit := hidle ▸ job.limit_pos
    have hi := h i
    rw [step?, hwaiting] at hi
    dsimp only at hi
    rw [if_pos ⟨hbefore, hfree⟩] at hi
    cases hi

/-! ### What holds between two steps -/

/-- A list of the workers that have taken `k` steps, each of them once. -/
structure Listed (k : Nat) (phase : Fin n → Phase) (order : List (Fin n)) : Prop where
  nodup : order.Nodup
  mem_iff : ∀ i, i ∈ order ↔ k ≤ (phase i).steps

namespace Listed

variable {k : Nat} {phase : Fin n → Phase} {order : List (Fin n)} {i : Fin n} {next : Phase}

/-- A list of workers that have come so far stays as it is where nobody passes the mark. -/
theorem stays (h : Listed k phase order) (hk : k ≤ next.steps ↔ k ≤ (phase i).steps) :
    Listed k (Function.update phase i next) order := by
  refine ⟨h.nodup, fun j ↦ ?_⟩
  rw [h.mem_iff, Function.update_apply]
  split
  case isTrue hj => rw [hj, hk]
  case isFalse => rfl

/-- A worker that takes its step number `k` is the last of them so far. -/
theorem snoc (h : Listed k phase order) (hbefore : (phase i).steps < k) (hafter : k ≤ next.steps) :
    Listed k (Function.update phase i next) (order ++ [i]) := by
  have hi : i ∉ order := fun hi ↦ by
    have := (h.mem_iff i).1 hi
    omega
  refine ⟨List.nodup_append.2 ⟨h.nodup, List.nodup_singleton i, ?_⟩, fun j ↦ ?_⟩
  · rintro j hj _ hi' rfl
    exact hi (List.mem_singleton.1 hi' ▸ hj)
  · rw [List.mem_append, List.mem_singleton, h.mem_iff, Function.update_apply]
    split
    case isTrue hj => simp [hj, hafter]
    case isFalse hj => simp [hj]

/-- In the end all workers are listed. -/
theorem perm_finRange (h : Listed k phase order) (hall : ∀ i, k ≤ (phase i).steps) :
    order.Perm (List.finRange n) := by
  refine (List.perm_ext_iff_of_nodup h.nodup (List.nodup_finRange n)).2 fun i ↦ ?_
  simp [h.mem_iff, hall]

end Listed

/-- What a worker has, given the source and the result that it has if it is the only one. -/
inductive Worked (source : Except TargetError Bytes) (result : Result) :
    Phase → Option Result → Prop
  | waiting : Worked source result .waiting none
  | started : Worked source result .started none
  | read : Worked source result (.read source) none
  | written : Worked source result (.written result) none
  | done : Worked source result .done (some result)

namespace Worked

variable {source source' : Except TargetError Bytes} {result result' : Result} {phase : Phase}
  {slot : Option Result}

theorem source_eq (h : Worked source result (.read source') slot) : source' = source := by
  cases h
  rfl

theorem result_eq (h : Worked source result (.written result') slot) : result' = result := by
  cases h
  rfl

/-- A worker that is not done has stored nothing. -/
theorem slot_eq_none (h : Worked source result phase slot) (hsteps : phase.steps < 4) :
    slot = none := by
  cases h with
  | done => exact absurd hsteps (by decide)
  | _ => rfl

theorem slot_eq_some (h : Worked source result .done slot) : slot = some result := by
  cases h
  rfl

end Worked

/-- What a pool is like between two steps. -/
structure Sound (p : Pool job.targets.length) : Prop where
  worked : ∀ i, Worked (job.source i) (job.result i) (p.phase i) (p.slots i)
  /-- Standard input is untouched as long as there is somebody to read it. -/
  stdin : ∀ i, (job.target i).isStdin = true → (p.phase i).steps < 2 → p.stdin = job.stdin
  /-- The files hold what some workers wrote. -/
  workspace : ∃ order, Listed 3 p.phase order ∧ p.workspace = job.deposits (order.map job.target)
  log : ∃ order, Listed 2 p.phase order ∧
    p.log = order.map fun i ↦ lintingEntry (job.target i)

/-- The invariant holds at the start. -/
theorem sound_start (job : Job) : Sound job.start := by
  refine ⟨fun i ↦ .waiting, fun _ _ _ ↦ rfl, ⟨[], ⟨List.nodup_nil, fun i ↦ ?_⟩, rfl⟩,
    ⟨[], ⟨List.nodup_nil, fun i ↦ ?_⟩, rfl⟩⟩
  · simp [Job.start]
  · simp [Job.start]

namespace Sound

/-- Only the worker that takes a step has something new. -/
theorem worked_enter (h : Sound p) {next : Phase} {slot : Option Result}
    (hi : Worked (job.source i) (job.result i) next slot) (j : Fin job.targets.length) :
    Worked (job.source j) (job.result j) (Function.update p.phase i next j)
      (Function.update p.slots i slot j) := by
  by_cases hj : j = i
  · subst hj
    rwa [Function.update_self, Function.update_self]
  · rw [Function.update_of_ne hj, Function.update_of_ne hj]
    exact h.worked j

/-- A worker that has not read standard input finds it untouched. -/
theorem stdin_enter (h : Sound p) {next : Phase} (hi : (p.phase i).steps ≤ next.steps)
    (j : Fin job.targets.length) (hj : (job.target j).isStdin = true)
    (hsteps : (Function.update p.phase i next j).steps < 2) : p.stdin = job.stdin := by
  refine h.stdin j hj ?_
  by_cases hji : j = i
  · subst hji
    rw [Function.update_self] at hsteps
    omega
  · rwa [Function.update_of_ne hji] at hsteps

/-- A worker that is not done need not store anything yet. -/
theorem worked_enter_none (h : Sound p) (hi : (p.phase i).steps < 4) {next : Phase}
    (hnext : Worked (job.source i) (job.result i) next none) (j : Fin job.targets.length) :
    Worked (job.source j) (job.result j) (Function.update p.phase i next j) (p.slots j) := by
  have hslots : Function.update p.slots i none = p.slots := by
    rw [← (h.worked i).slot_eq_none hi, Function.update_eq_self]
  exact hslots ▸ h.worked_enter hnext j

variable (hapart : job.targets.Pairwise (ApartIn job.workspace))
  (honce : job.targets.Pairwise fun s t ↦ s.isStdin = true → t.isStdin = false)

include hapart in
/-- A worker reads what it reads if it is the only one. -/
theorem sourceOf_eq (h : Sound p) (hi : (p.phase i).steps < 2) :
    sourceOf p.workspace p.stdin (job.target i) = job.source i := by
  obtain ⟨order, horder, hworkspace⟩ := h.workspace
  have hsource : sourceOf p.workspace job.stdin (job.target i) = job.source i := by
    rw [hworkspace, Job.deposits, sourceOf_deposits, Job.source]
    intro s hs
    obtain ⟨j, hj, rfl⟩ := List.mem_map.1 hs
    refine job.apart hapart ?_
    rintro rfl
    have := (horder.mem_iff j).1 hj
    omega
  rw [← hsource, sourceOf, sourceOf]
  cases ht : (job.target i).isStdin with
  | true => rw [h.stdin i ht hi]
  | false => rfl

include hapart honce in
/-- **Every step keeps a pool sound.** -/
theorem step (h : Sound p) (hstep : Steps job i p p') : Sound p' := by
  obtain ⟨writers, hwriters, hworkspace⟩ := h.workspace
  obtain ⟨readers, hreaders, hlog⟩ := h.log
  cases hstep with
  | start hi =>
    have hsteps : (p.phase i).steps = 0 := by rw [hi]; rfl
    exact ⟨h.worked_enter_none (by omega) .started, h.stdin_enter (by omega),
      ⟨writers, hwriters.stays (by simp [hsteps]), hworkspace⟩,
      ⟨readers, hreaders.stays (by simp [hsteps]), hlog⟩⟩
  | read hi =>
    have hsteps : (p.phase i).steps = 1 := by rw [hi]; rfl
    have hsource := h.sourceOf_eq hapart (i := i) (by omega)
    refine ⟨h.worked_enter_none (by omega) (hsource ▸ .read), fun j hj hbefore ↦ ?_,
      ⟨writers, hwriters.stays (by simp [hsteps]), hworkspace⟩,
      ⟨readers ++ [i], hreaders.snoc (by omega) (by simp), ?_⟩⟩
    · -- Nobody else reads standard input.
      have hfile : (job.target i).isStdin = false := by
        by_contra ht
        obtain rfl := job.eq_of_isStdin honce (by simpa using ht) hj
        simp [enter] at hbefore
      simpa [hfile] using h.stdin_enter (by simp [hsteps]) j hj hbefore
    · simp [hlog]
  | @write source hi =>
    have hsteps : (p.phase i).steps = 2 := by rw [hi]; rfl
    obtain rfl : source = job.source i := (hi ▸ h.worked i).source_eq
    refine ⟨h.worked_enter_none (by omega) .written, h.stdin_enter (by simp [hsteps]),
      ⟨writers ++ [i], hwriters.snoc (by omega) (by simp), ?_⟩,
      ⟨readers, hreaders.stays (by simp [hsteps]), hlog⟩⟩
    rw [List.map_append, Job.deposits, List.foldl_append, ← Job.deposits, ← hworkspace]
    rfl
  | @store result hi =>
    have hsteps : (p.phase i).steps = 3 := by rw [hi]; rfl
    obtain rfl : result = job.result i := (hi ▸ h.worked i).result_eq
    exact ⟨h.worked_enter .done, h.stdin_enter (by simp [hsteps]),
      ⟨writers, hwriters.stays (by simp [hsteps]), hworkspace⟩,
      ⟨readers, hreaders.stays (by simp [hsteps]), hlog⟩⟩

include hapart honce in
/-- The invariant holds after every schedule. -/
theorem run {schedule : List (Fin job.targets.length)} (h : Sound p)
    (hrun : run? job p schedule = some p') : Sound p' := by
  induction schedule generalizing p with
  | nil =>
    obtain rfl := Option.some.inj hrun
    exact h
  | cons i schedule ih =>
    obtain ⟨next, hstep, hrest⟩ := run?_cons hrun
    exact ih (h.step hapart honce (steps_of_step? hstep)) hrest

end Sound

/-! ### What the workers leave -/

/-- The results that have been stored, in the order of the targets. -/
def results (p : Pool n) : List Result :=
  (List.ofFn p.slots).reduceOption

/-- What a run makes of what its workers leave. -/
def outcome (p : Pool n) (env : Environment) (r : Request) (registry : Registry)
    (format : Report.Format) (log : List Log.Entry) (x : Target.Expansion) : Outcome :=
  finish env r p.workspace (log ++ x.log ++ p.log ++ p.results.flatMap Result.log)
    (exitOf x p.results) (r.mode == .fix && x.targets.any (·.isStdin))
    (p.results.flatMap Result.output) (reportText format registry r p.results)

namespace Sound

variable (hdone : ∀ i, p.phase i = .done)

include hdone in
/-- When all are done, each slot holds the result of its target. -/
theorem slots_eq (h : Sound p) :
    List.ofFn p.slots = (job.targets.map fun t ↦
      resultOf job.mode job.settings job.faults t (sourceOf job.workspace job.stdin t)).map some := by
  have hslots : p.slots = fun i ↦ some (job.result i) :=
    funext fun i ↦ (hdone i ▸ h.worked i).slot_eq_some
  rw [hslots, List.ofFn_eq_map, List.map_map, ← job.map_target]
  rfl

include hdone in
/-- When all are done, each target was logged once. -/
theorem log_perm (h : Sound p) : p.log.Perm (job.targets.map lintingEntry) := by
  obtain ⟨order, horder, hlog⟩ := h.log
  rw [hlog, ← job.map_target]
  exact (horder.perm_finRange fun i ↦ by simp [hdone]).map _

include hdone in
/-- The writes of all workers, in whatever order, are those of all targets in order. -/
theorem workspace_eq (h : Sound p) (hapart : job.targets.Pairwise (ApartIn job.workspace)) :
    p.workspace = job.deposits job.targets := by
  obtain ⟨order, horder, hworkspace⟩ := h.workspace
  have hperm : (order.map job.target).Perm job.targets := by
    have hall : (List.finRange job.targets.length).map job.target = job.targets :=
      List.map_get_finRange job.targets
    exact ((horder.perm_finRange fun i ↦ by simp [hdone]).map job.target).trans (.of_eq hall)
  rw [hworkspace, Job.deposits, Job.deposits]
  exact deposits_perm _ _ _ _ hperm ((hperm.pairwise_iff ApartIn.symm).2 hapart) (.refl _)

end Sound

/-- When no worker can go on, the files and the results are those of processing the targets in
order. -/
theorem inOrder_of_stuck {schedule : List (Fin job.targets.length)}
    (hapart : job.targets.Pairwise (ApartIn job.workspace))
    (honce : job.targets.Pairwise fun s t ↦ s.isStdin = true → t.isStdin = false)
    (hrun : run? job job.start schedule = some p) (hstuck : ∀ i, step? job p i = none) :
    (p.workspace, List.ofFn p.slots)
        = (processAll job.mode job.settings job.stdin job.faults job.workspace job.targets).map id
          (List.map some) ∧
      p.log.Perm (job.targets.map lintingEntry) := by
  have hsound := (sound_start job).run hapart honce hrun
  have hdone := done_of_stuck hstuck
  refine ⟨?_, hsound.log_perm hdone⟩
  rw [processAll_eq _ _ _ _ hapart, hsound.workspace_eq hdone hapart, hsound.slots_eq hdone]
  rfl

end Pool

/-! ### Whole runs -/

/-- What is logged shows on standard error and nowhere else. -/
theorem finish_log (env : Environment) (r : Request) (w : Workspace) (log log' : List Log.Entry)
    (exit : Exit) (onStderr : Bool) (output report : Bytes) :
    (finish env r w log exit onStderr output report).stdout
        = (finish env r w log' exit onStderr output report).stdout ∧
      (finish env r w log exit onStderr output report).workspace
        = (finish env r w log' exit onStderr output report).workspace ∧
      (finish env r w log exit onStderr output report).exit
        = (finish env r w log' exit onStderr output report).exit := by
  rw [finish, finish]
  dsimp only
  split
  · exact ⟨rfl, rfl, rfl⟩
  · split
    · exact ⟨rfl, rfl, rfl⟩
    · split <;> exact ⟨rfl, rfl, rfl⟩

/-- **Schedules make no difference.** Let workers process targets that are different files, with
standard input among them at most once, and let the file system say to each text for each path what
it will. Then every schedule ends, at the latest after four steps for each target. When no worker
can go on, the files and the results are those of processing the targets in order, and so are the
report and, of a run that is not called off, standard output, the files and the exit code. What is
logged when a target is taken up may come in another order. -/
theorem run_schedule (registry : Registry) (env : Environment) (r : Request)
    (settings : List Setting) (format : Report.Format) (log : List Log.Entry)
    (x : Target.Expansion) (hapart : x.targets.Pairwise (ApartIn env.workspace))
    (honce : x.targets.Pairwise fun s t ↦ s.isStdin = true → t.isStdin = false)
    (limit : Nat) (hlimit : 0 < limit) (schedule : List (Fin x.targets.length))
    (p : Pool x.targets.length) :
    let job : Job := ⟨r.mode, settings, x.targets, env.workspace, env.stdin,
      env.writeFaults, limit, hlimit⟩
    let inOrder := processAll r.mode settings env.stdin env.writeFaults env.workspace x.targets
    let ran := runTargets env r registry settings format log x
    Pool.run? job job.start schedule = some p →
      schedule.length ≤ 4 * x.targets.length ∧
      ((∀ i, Pool.step? job p i = none) →
        p.workspace = inOrder.1 ∧ List.ofFn p.slots = inOrder.2.map some ∧
        p.log.Perm (x.targets.map lintingEntry) ∧
        reportText format registry r p.results = reportText format registry r inOrder.2 ∧
        (env.interrupted = false →
          (p.outcome env r registry format log x).stdout = ran.stdout ∧
          (p.outcome env r registry format log x).workspace = ran.workspace ∧
          (p.outcome env r registry format log x).exit = ran.exit)) := by
  intro job inOrder ran hrun
  have hcount := Pool.steps_run? hrun
  have hle := p.steps_le
  refine ⟨by omega, fun hstuck ↦ ?_⟩
  obtain ⟨hleft, hlog⟩ := @Pool.inOrder_of_stuck job p schedule hapart honce hrun hstuck
  obtain ⟨hworkspace, hslots⟩ := Prod.mk.inj hleft
  have hresults : p.results = inOrder.2 := by
    rw [Pool.results, hslots]
    simp [List.reduceOption, inOrder, job]
  refine ⟨hworkspace, hslots, hlog, by rw [hresults], fun hgoes ↦ ?_⟩
  have hran : ran = finish env r inOrder.1 (log ++ x.log ++ x.targets.map lintingEntry
      ++ inOrder.2.flatMap Result.log) (exitOf x inOrder.2)
      (r.mode == .fix && x.targets.any (·.isStdin)) (inOrder.2.flatMap Result.output)
      (reportText format registry r inOrder.2) := by
    simp only [ran, runTargets, hgoes, Bool.false_and, Bool.false_eq_true, if_false, inOrder]
  rw [Pool.outcome, hworkspace, hresults, hran]
  exact finish_log _ _ _ _ _ _ _ _ _

/-- The three scripts with two workers at a time. The second script is read before the first one is,
and standard input is fixed before the first script is written. -/
theorem run_schedule_threeScripts :
    let job : Job := ⟨fixThree.mode, planThree.settings, planThree.expansion.targets,
      threeScripts.workspace, threeScripts.stdin, threeScripts.writeFaults, 2, by decide⟩
    let schedule : List (Fin 3) := [0, 1, 1, 0, 1, 1, 2, 2, 2, 0, 2, 0]
    threeScripts.interrupted = false ∧
      planThree.expansion.targets.Pairwise (ApartIn threeScripts.workspace) ∧
      (planThree.expansion.targets.Pairwise fun s t ↦ s.isStdin = true → t.isStdin = false) ∧
      ∃ p, Pool.run? job job.start schedule = some p ∧ (∀ i, Pool.step? job p i = none) ∧
        p.workspace.read (utf8 "a.js") = .ok (utf8 "x = \x7ba: 1\x7d") ∧
        (p.outcome threeScripts fixThree .builtin .text planThree.log planThree.expansion).stdout
          = utf8 "y = \x7bc: 2\x7d" := by
  intro job schedule
  have ha : threeScripts.workspace.locate (utf8 "a.js") = .ok [utf8 "a.js"] := by decide +kernel
  have hb : threeScripts.workspace.locate (utf8 "b.js") = .ok [utf8 "b.js"] := by decide +kernel
  have hne : utf8 "a.js" ≠ utf8 "b.js" := by decide
  have hapart : planThree.expansion.targets.Pairwise (ApartIn threeScripts.workspace) := by
    simp [planThree, ApartIn, Target.ofFile, Target.stdin, ha, hb, hne.symm]
  have honce : planThree.expansion.targets.Pairwise
      fun s t ↦ s.isStdin = true → t.isStdin = false := by decide
  have hends : ((Pool.run? job job.start schedule).any fun p ↦
      decide (∀ i, (Pool.step? job p i).isNone = true)) = true := by decide +kernel
  rw [Option.any_eq_true] at hends
  obtain ⟨p, hrun, hends⟩ := hends
  have hstuck : ∀ i, Pool.step? job p i = none := by simpa using hends
  obtain ⟨hworkspace, -, -, -, hstdout⟩ := (run_schedule .builtin threeScripts fixThree
    planThree.settings .text planThree.log planThree.expansion hapart honce 2 (by decide) schedule
    p hrun).2 hstuck
  refine ⟨rfl, hapart, honce, p, hrun, hstuck, ?_, (hstdout rfl).1.trans (by decide +kernel)⟩
  rw [hworkspace]
  decide +kernel

end Run

end ColonGap
