import ExprLang.Proofs.Run.Output
import Mathlib.Algebra.BigOperators.Group.List.Basic
import Mathlib.Algebra.GroupWithZero.Nat

/-!
# Sources processed at the same time

A group processes its sources by one task each.  A task reads its source, renders the text, logs
what there is to log and hands in its output, and the steps of different tasks may come in any
order.  The first task that has an error instead records it and cancels the group after that.  A task
that comes to read an input when the group is canceled has an error as well, which is none of its
source's.

The invariant `TaskGroup.Sound` is kept by every step.  It says that the group is canceled only when
an error is recorded, that a recorded error is one that some source has on its own, and, as long as
there is none, that every task is where its source takes it and that the events logged and those
still to be logged are together those of all sources.  Each step leaves less to do
(`TaskGroup.Step.work_lt`) and one is always possible (`TaskGroup.Sound.exists_step`), so the tasks
come to an end in every order, and what the group gives then is what the sources give one after
another.
-/

namespace ExprLang

/-- Rendering logs at most two events. -/
lemma Format.length_render_le (outline : Program → Text) (f : Format) (name text : Text) :
    (f.render outline name text).2.length ≤ 2 := by
  unfold Format.render
  split
  · cases tokenize text <;> simp
  · unfold compile
    cases parse text <;> simp

/-! ## Tasks -/

/-- How far a task has come. -/
inductive Stage where
  /-- It has not read its source. -/
  | waiting
  | holding (text : Text)
  /-- It has a result, and may have to log before it hands it in. -/
  | finishing (events : List Event) (result : Except RunError Text)
  /-- Its error has been recorded, and it has to cancel the group. -/
  | canceling
  | done

namespace Stage

/-- Where reading takes a task. -/
def ofRead : Except RunError Text → Stage
  | .ok text => .holding text
  | .error e => .finishing [] (.error e)

/-- Where rendering takes a task. -/
def ofRender (rendered : Except RunError Text × List Event) : Stage :=
  .finishing rendered.2 rendered.1

/-- A bound on the steps that a task has still to take. -/
def work : Stage → Nat
  | .waiting => 6
  | .holding _ => 5
  | .finishing events _ => events.length + 2
  | .canceling => 1
  | .done => 0

variable (outline : Program → Text) (supply : Supply) (format : Format) (s : Source)

/-- The stage is one to which the source itself takes its task, with `out` in the place of its
output. -/
def Fits (out : Text) : Stage → Prop
  | .waiting => True
  | .holding text => s.read supply = .ok text
  | .finishing _ result => result = (s.process outline supply format).1
  | .canceling => False
  | .done => (s.process outline supply format).1 = .ok out

/-- What is still to be logged about the source. -/
def pending : Stage → List Event
  | .waiting | .holding _ => (s.process outline supply format).2
  | .finishing events _ => events
  | .canceling | .done => []

end Stage

/-- The tasks of a group, each with a place for its output, and what they share. -/
structure TaskGroup where
  stages : List Stage
  outputs : List Text
  /-- The first error that was handed in. -/
  error : Option RunError
  canceled : Bool
  log : List Event

namespace TaskGroup

/-- A group of `n` tasks before the first step. -/
def start (n : Nat) : TaskGroup where
  stages := List.replicate n .waiting
  outputs := List.replicate n []
  error := none
  canceled := false
  log := []

/-- No task has anything left to do. -/
def Finished (g : TaskGroup) : Prop :=
  ∀ stage ∈ g.stages, stage = .done

/-- What a group gives. -/
def result (g : TaskGroup) : Except RunError (List Text) :=
  match g.error with
  | some e => .error e
  | none => .ok g.outputs

/-- A bound on the steps that are left. -/
def work (g : TaskGroup) : Nat :=
  (g.stages.map Stage.work).sum

variable (outline : Program → Text) (supply : Supply) (format : Format) (sources : List Source)

/-- One step of one task, the `i`-th. -/
inductive Step : TaskGroup → TaskGroup → Prop
  /-- It reads, unless it is an input and the group is canceled. -/
  | read {g : TaskGroup} {i : Nat} {s : Source} (hs : sources[i]? = some s)
      (hi : g.stages[i]? = some .waiting) :
      Step g { g with
        stages := g.stages.set i
          (.ofRead (s.read { supply with canceled := supply.canceled || g.canceled })) }
  | render {g : TaskGroup} {i : Nat} {s : Source} {text : Text} (hs : sources[i]? = some s)
      (hi : g.stages[i]? = some (.holding text)) :
      Step g { g with stages := g.stages.set i (.ofRender (format.render outline s.name text)) }
  | log {g : TaskGroup} {i : Nat} {event : Event} {events : List Event}
      {result : Except RunError Text}
      (hi : g.stages[i]? = some (.finishing (event :: events) result)) :
      Step g { g with
        stages := g.stages.set i (.finishing events result)
        log := g.log ++ [event] }
  | succeed {g : TaskGroup} {i : Nat} {out : Text}
      (hi : g.stages[i]? = some (.finishing [] (.ok out))) :
      Step g { g with
        stages := g.stages.set i .done
        outputs := g.outputs.set i out }
  /-- It has the first error. -/
  | record {g : TaskGroup} {i : Nat} {e : RunError}
      (hi : g.stages[i]? = some (.finishing [] (.error e))) (he : g.error = none) :
      Step g { g with
        stages := g.stages.set i .canceling
        error := some e }
  /-- It has an error that is not the first. -/
  | discard {g : TaskGroup} {i : Nat} {e : RunError}
      (hi : g.stages[i]? = some (.finishing [] (.error e))) (he : g.error ≠ none) :
      Step g { g with stages := g.stages.set i .done }
  | cancel {g : TaskGroup} {i : Nat} (hi : g.stages[i]? = some .canceling) :
      Step g { g with
        stages := g.stages.set i .done
        canceled := true }

/-- In whatever order the tasks take their steps, they come to an end, and `P` holds then. -/
inductive Inevitably (P : TaskGroup → Prop) : TaskGroup → Prop
  | finished {g : TaskGroup} (hfinished : g.Finished) (hP : P g) : Inevitably P g
  | later {g : TaskGroup} (hsome : ∃ g', Step outline supply format sources g g')
      (hall : ∀ g', Step outline supply format sources g g' → Inevitably P g') : Inevitably P g

/-! ## Every order comes to an end -/

section Work

variable {outline supply format sources}

/-- A task that has less to do leaves less to do. -/
lemma sum_work_set_lt {stages : List Stage} {i : Nat} {old new : Stage}
    (hi : stages[i]? = some old) (hlt : new.work < old.work) :
    ((stages.set i new).map Stage.work).sum < (stages.map Stage.work).sum := by
  obtain ⟨hlength, rfl⟩ := List.getElem?_eq_some_iff.1 hi
  obtain ⟨before, behind, hstages, -, hset⟩ := List.exists_of_set hlength
  rw [hset]
  conv_rhs => rw [hstages]
  simp only [List.map_append, List.map_cons, List.sum_append, List.sum_cons]
  omega

/-- Every step leaves less to do. -/
lemma Step.work_lt {g g' : TaskGroup} (h : Step outline supply format sources g g') :
    g'.work < g.work := by
  cases h with
  | read hs hi =>
    refine sum_work_set_lt hi ?_
    unfold Stage.ofRead
    split <;> simp [Stage.work]
  | @render _ s text hs hi =>
    refine sum_work_set_lt hi ?_
    have hevents := format.length_render_le outline s.name text
    simp only [Stage.ofRender, Stage.work]
    omega
  | log hi => exact sum_work_set_lt hi (by simp [Stage.work])
  | succeed hi => exact sum_work_set_lt hi (by simp [Stage.work])
  | record hi he => exact sum_work_set_lt hi (by simp [Stage.work])
  | discard hi he => exact sum_work_set_lt hi (by simp [Stage.work])
  | cancel hi => exact sum_work_set_lt hi (by simp [Stage.work])

end Work

/-! ## The invariant -/

/-- What is still to be logged, by all tasks. -/
def pending (g : TaskGroup) : List Event :=
  (sources.zip g.stages).flatMap fun (s, stage) => stage.pending outline supply format s

/-- The invariant of a group. -/
structure Sound (g : TaskGroup) : Prop where
  length_stages : g.stages.length = sources.length
  length_outputs : g.outputs.length = sources.length
  /-- The group is canceled only after an error has been recorded. -/
  error_ne_none : g.canceled = true → g.error ≠ none
  /-- A recorded error is one that some source has on its own. -/
  exists_source : ∀ e, g.error = some e →
    ∃ s ∈ sources, (s.process outline supply format).1 = .error e
  /-- As long as there is no error, every task is where its source takes it. -/
  fits : g.error = none → ∀ (i : Nat) (s : Source) (stage : Stage) (out : Text),
    sources[i]? = some s → g.stages[i]? = some stage → g.outputs[i]? = some out →
      stage.Fits outline supply format s out
  /-- As long as there is no error, no event is lost or logged twice. -/
  log_perm : g.error = none → (g.log ++ g.pending outline supply format sources).Perm
    (sources.flatMap fun s => (s.process outline supply format).2)

variable {outline supply format sources} {g g' : TaskGroup}

/-- At the start all events of all sources are to be logged. -/
lemma pending_start : (start sources.length).pending outline supply format sources =
    sources.flatMap fun s => (s.process outline supply format).2 := by
  induction sources with
  | nil => rfl
  | cons s sources ih => exact congrArg ((s.process outline supply format).2 ++ ·) ih

lemma sound_start : (start sources.length).Sound outline supply format sources where
  length_stages := by simp [start]
  length_outputs := by simp [start]
  error_ne_none h := by simp [start] at h
  exists_source e h := by simp [start] at h
  fits _ i s stage out _ hstage _ := by
    have hwaiting : stage = .waiting :=
      List.eq_of_mem_replicate (List.mem_of_getElem? hstage)
    subst hwaiting
    trivial
  log_perm _ := by
    rw [pending_start]
    exact .refl _

/-- A task has a source and a place for its output, and without an error it is where its source
takes it. -/
lemma Sound.exists_fits (h : g.Sound outline supply format sources) {i : Nat} {stage : Stage}
    (hi : g.stages[i]? = some stage) :
    ∃ s out, sources[i]? = some s ∧ (g.error = none → stage.Fits outline supply format s out) := by
  have hstages : i < g.stages.length := (List.getElem?_eq_some_iff.1 hi).1
  have hsources : i < sources.length := h.length_stages ▸ hstages
  have houtputs : i < g.outputs.length := h.length_outputs.symm ▸ hsources
  have hs := List.getElem?_eq_getElem hsources
  have hout := List.getElem?_eq_getElem houtputs
  exact ⟨_, _, hs, fun hnone => h.fits hnone i _ _ _ hs hi hout⟩

/-- What a task logs in a step it has no longer to log, and the other tasks log what they logged. -/
lemma perm_pending_set {stages : List Stage} {i : Nat} {s : Source} {old new : Stage}
    {events : List Event} (hs : sources[i]? = some s) (hi : stages[i]? = some old)
    (hevents :
      old.pending outline supply format s = events ++ new.pending outline supply format s) :
    (events ++ (sources.zip (stages.set i new)).flatMap fun (s, stage) =>
      stage.pending outline supply format s).Perm
    ((sources.zip stages).flatMap fun (s, stage) => stage.pending outline supply format s) := by
  induction sources generalizing stages i with
  | nil => simp at hs
  | cons s₀ sources ih =>
    cases stages with
    | nil => simp at hi
    | cons stage stages =>
      cases i with
      | zero =>
        simp only [List.getElem?_cons_zero, Option.some.injEq] at hs hi
        subst hs hi
        simp [hevents]
      | succ i =>
        have hs' : sources[i]? = some s := by simpa using hs
        have hi' : stages[i]? = some old := by simpa using hi
        simp only [List.set_cons_succ, List.zip_cons_cons, List.flatMap_cons]
        exact (List.perm_append_comm_assoc _ _ _).trans ((ih hs' hi').append_left _)

/-- A group in which an error is recorded has no more to keep. -/
lemma Sound.of_error (hstages : g.stages.length = sources.length)
    (houtputs : g.outputs.length = sources.length) (hne : g.error ≠ none)
    (hsource : ∀ e, g.error = some e →
      ∃ s ∈ sources, (s.process outline supply format).1 = .error e) :
    g.Sound outline supply format sources where
  length_stages := hstages
  length_outputs := houtputs
  error_ne_none _ := hne
  exists_source := hsource
  fits h := absurd h hne
  log_perm h := absurd h hne

/-- A step that changes neither the error nor the cancellation keeps the invariant if it takes its
task from a stage that fits to another one, logging what the first had to log and the second has
not. -/
lemma Sound.advance (h : g.Sound outline supply format sources) {i : Nat} {old new : Stage}
    (events : List Event) (hi : g.stages[i]? = some old)
    (hstages : g'.stages = g.stages.set i new) (hlength : g'.outputs.length = g.outputs.length)
    (houtputs : ∀ k, k ≠ i → g'.outputs[k]? = g.outputs[k]?) (herror : g'.error = g.error)
    (hcanceled : g'.canceled = g.canceled) (hlog : g'.log = g.log ++ events)
    (hfits : g.error = none → ∀ s out, sources[i]? = some s → old.Fits outline supply format s out →
      (∀ out', g'.outputs[i]? = some out' → new.Fits outline supply format s out') ∧
        old.pending outline supply format s = events ++ new.pending outline supply format s) :
    g'.Sound outline supply format sources := by
  obtain ⟨s, out, hs, hold⟩ := h.exists_fits hi
  refine ⟨by simp [hstages, h.length_stages], hlength.trans h.length_outputs, ?_, ?_, ?_, ?_⟩
  · rw [hcanceled, herror]
    exact h.error_ne_none
  · rw [herror]
    exact h.exists_source
  · intro hnone k s' stage out' hs' hstage hout'
    rw [herror] at hnone
    rw [hstages, List.getElem?_set] at hstage
    split_ifs at hstage with hik
    · subst hik
      cases hstage
      rw [hs] at hs'
      cases hs'
      exact (hfits hnone s out hs (hold hnone)).1 out' hout'
    · rw [houtputs k (Ne.symm hik)] at hout'
      exact h.fits hnone k s' stage out' hs' hstage hout'
  · intro hnone
    rw [herror] at hnone
    have hpending := (hfits hnone s out hs (hold hnone)).2
    have hset := perm_pending_set hs hi hpending
    rw [hlog, pending, hstages, List.append_assoc]
    exact (hset.append_left g.log).trans (h.log_perm hnone)

/-- A canceling task has recorded an error. -/
lemma Sound.error_ne_none_of_canceling (h : g.Sound outline supply format sources) {i : Nat}
    (hi : g.stages[i]? = some .canceling) : g.error ≠ none := by
  obtain ⟨s, out, -, hfits⟩ := h.exists_fits hi
  exact hfits

/-- Every step keeps the invariant. -/
lemma Sound.step (h : g.Sound outline supply format sources)
    (hstep : Step outline supply format sources g g') : g'.Sound outline supply format sources := by
  cases hstep with
  | @read i s hs hi =>
    refine h.advance [] hi rfl rfl (fun _ _ => rfl) rfl rfl (by simp) ?_
    intro hnone s' out hs' _
    rw [hs] at hs'
    cases hs'
    have hsupply : { supply with canceled := supply.canceled || g.canceled } = supply := by
      have hcanceled : g.canceled = false := by
        by_contra htrue
        exact h.error_ne_none (by simpa using htrue) hnone
      simp [hcanceled]
    rw [hsupply]
    cases hread : s.read supply with
    | ok text => exact ⟨fun _ _ => hread, rfl⟩
    | error e =>
      have hprocess : s.process outline supply format = _ := Source.process_of_read_error hread
      exact ⟨fun _ _ => by simp [Stage.ofRead, Stage.Fits, hprocess],
        by simp [Stage.ofRead, Stage.pending, hprocess]⟩
  | @render i s text hs hi =>
    refine h.advance [] hi rfl rfl (fun _ _ => rfl) rfl rfl (by simp) ?_
    intro _ s' out hs' hread
    rw [hs] at hs'
    cases hs'
    have hprocess : s.process outline supply format = _ := Source.process_of_read_ok hread
    exact ⟨fun _ _ => by simp [Stage.ofRender, Stage.Fits, hprocess],
      by simp [Stage.ofRender, Stage.pending, hprocess]⟩
  | log hi =>
    exact h.advance [_] hi rfl rfl (fun _ _ => rfl) rfl rfl rfl fun _ _ _ _ hfits =>
      ⟨fun _ _ => hfits, rfl⟩
  | @succeed i out hi =>
    refine h.advance [] hi rfl (by simp) ?_ rfl rfl (by simp) ?_
    · intro k hk
      exact List.getElem?_set_ne (Ne.symm hk)
    · intro _ s out' _ hfits
      refine ⟨?_, rfl⟩
      intro out'' hout''
      obtain ⟨hlt, hsame⟩ := List.getElem?_eq_some_iff.1 hout''
      rw [List.getElem_set_self] at hsame
      rw [← hsame]
      exact hfits.symm
  | @record i e hi he =>
    -- no task has an error of the group's before one is recorded
    obtain ⟨s, out, hs, hfits⟩ := h.exists_fits hi
    have hprocess : (s.process outline supply format).1 = .error e := (hfits he).symm
    refine .of_error (by simp [h.length_stages]) h.length_outputs (by simp) ?_
    rintro e' ⟨rfl⟩
    exact ⟨s, List.mem_of_getElem? hs, hprocess⟩
  | discard hi he =>
    exact .of_error (by simp [h.length_stages]) h.length_outputs he h.exists_source
  | cancel hi =>
    exact .of_error (by simp [h.length_stages]) h.length_outputs
      (h.error_ne_none_of_canceling hi) h.exists_source

/-! ## What the group gives -/

/-- A task that is not done can take a step. -/
lemma Sound.exists_step (h : g.Sound outline supply format sources) (hopen : ¬ g.Finished) :
    ∃ g', Step outline supply format sources g g' := by
  simp only [Finished, not_forall] at hopen
  obtain ⟨stage, hstage, hdone⟩ := hopen
  obtain ⟨i, hi⟩ := List.mem_iff_getElem?.1 hstage
  obtain ⟨s, -, hs, -⟩ := h.exists_fits hi
  cases stage with
  | waiting => exact ⟨_, .read hs hi⟩
  | holding text => exact ⟨_, .render hs hi⟩
  | finishing events result =>
    cases events with
    | cons event events => exact ⟨_, .log hi⟩
    | nil =>
      cases result with
      | ok out => exact ⟨_, .succeed hi⟩
      | error e =>
        by_cases he : g.error = none
        · exact ⟨_, .record hi he⟩
        · exact ⟨_, .discard hi he⟩
  | canceling => exact ⟨_, .cancel hi⟩
  | done => exact absurd rfl hdone

/-- A group comes to an end in every order, and the invariant holds then. -/
lemma Sound.inevitably {P : TaskGroup → Prop}
    (hP : ∀ g, g.Sound outline supply format sources → g.Finished → P g)
    (h : g.Sound outline supply format sources) : Inevitably outline supply format sources P g := by
  induction hwork : g.work using Nat.strong_induction_on generalizing g with
  | _ n ih =>
    subst hwork
    by_cases hfinished : g.Finished
    · exact .finished hfinished (hP g h hfinished)
    · refine .later (h.exists_step hfinished) ?_
      intro g' hstep
      exact ih g'.work hstep.work_lt (h.step hstep) rfl

/-- What holds at the end of every order may be weakened. -/
lemma Inevitably.mono {P Q : TaskGroup → Prop} (hPQ : ∀ g, P g → Q g)
    (h : Inevitably outline supply format sources P g) :
    Inevitably outline supply format sources Q g := by
  induction h with
  | finished hfinished hP => exact .finished hfinished (hPQ _ hP)
  | later hsome _ ih => exact .later hsome ih

/-- A finished group without an error holds the outputs of all sources, each in its place. -/
lemma Sound.forall₂_outputs (h : g.Sound outline supply format sources) (hfinished : g.Finished)
    (hnone : g.error = none) :
    List.Forall₂ (fun s out => (s.process outline supply format).1 = .ok out) sources g.outputs := by
  refine List.forall₂_iff_get.2 ⟨h.length_outputs.symm, ?_⟩
  intro i hs hout
  have hi : i < g.stages.length := h.length_stages.symm ▸ hs
  have hstage := List.getElem?_eq_getElem hi
  rw [hfinished _ (List.getElem_mem hi)] at hstage
  exact h.fits hnone i _ _ _ (List.getElem?_eq_getElem hs) hstage (List.getElem?_eq_getElem hout)

/-- A finished group without an error has logged the events of all sources. -/
lemma Sound.perm_log (h : g.Sound outline supply format sources) (hfinished : g.Finished)
    (hnone : g.error = none) :
    g.log.Perm (sources.flatMap fun s => (s.process outline supply format).2) := by
  have hpending : g.pending outline supply format sources = [] := by
    rw [pending, List.flatMap_eq_nil_iff]
    rintro ⟨s, stage⟩ hmem
    rw [hfinished stage (List.of_mem_zip hmem).2]
    rfl
  have hperm := h.log_perm hnone
  rwa [hpending, List.append_nil] at hperm

end TaskGroup

namespace Source

/-- No two of the sources, counted with repetitions, are faulty. -/
def AtMostOneFaulty (supply : Supply) (format : Format) (sources : List Source) : Prop :=
  ∀ (i k : Nat) (s t : Source), sources[i]? = some s → sources[k]? = some t →
    s.Faulty supply format → t.Faulty supply format → i = k

end Source

/-- A finished group gives what its sources give one after another, if at most one of them is
faulty. -/
lemma TaskGroup.Sound.result_eq {outline : Program → Text} {supply : Supply}
    {format : Format} {sources : List Source} {g : TaskGroup}
    (h : g.Sound outline supply format sources) (hfinished : g.Finished)
    (hone : Source.AtMostOneFaulty supply format sources) :
    g.result = (Source.processAll outline supply format sources).1 := by
  have hcases := Source.processAll_cases outline supply format sources
  cases he : g.error with
  | none =>
    have hresult : g.result = .ok g.outputs := by simp [TaskGroup.result, he]
    have hall := h.forall₂_outputs hfinished he
    rcases hcases with ⟨outs, houts, hprocess⟩ | ⟨s, hs, e, hfail, -⟩
    · have hunique : Relator.RightUnique fun (s : Source) (out : Text) =>
          (s.process outline supply format).1 = .ok out :=
        fun _ _ _ hout hout' => Except.ok.inj (hout.symm.trans hout')
      rw [hresult, hprocess, List.right_unique_forall₂' hunique hall houts]
    · exact absurd (Source.faulty_of_process hfail).1 (Source.not_faulty_of_forall₂ hall hs)
  | some e =>
    have hresult : g.result = .error e := by simp [TaskGroup.result, he]
    obtain ⟨s, hs, hfail⟩ := h.exists_source e he
    rcases hcases with ⟨outs, houts, -⟩ | ⟨t, ht, e', hfail', hprocess⟩
    · exact absurd (Source.faulty_of_process hfail).1 (Source.not_faulty_of_forall₂ houts hs)
    · -- both are errors of faulty sources, of which there is only one
      obtain ⟨i, hi⟩ := List.mem_iff_getElem?.1 hs
      obtain ⟨k, hk⟩ := List.mem_iff_getElem?.1 ht
      have hik : i = k := hone i k s t hi hk (Source.faulty_of_process hfail).1
        (Source.faulty_of_process hfail').1
      have hst : s = t := by
        rw [hik, hk] at hi
        exact (Option.some.inj hi).symm
      have hee' : e' = e := by
        rw [hst, hfail'] at hfail
        exact Except.error.inj hfail
      rw [hresult, hprocess, hee']

/-- A finished group has logged what its sources log one after another, up to the order, if none of
them is faulty. -/
lemma TaskGroup.Sound.perm_events {outline : Program → Text} {supply : Supply}
    {format : Format} {sources : List Source} {g : TaskGroup}
    (h : g.Sound outline supply format sources) (hfinished : g.Finished)
    (hsound : ∀ s ∈ sources, ¬ s.Faulty supply format) :
    g.log.Perm (Source.processAll outline supply format sources).2 := by
  have hnone : g.error = none := by
    by_contra hne
    obtain ⟨e, he⟩ := Option.ne_none_iff_exists'.1 hne
    obtain ⟨s, hs, hfail⟩ := h.exists_source e he
    exact hsound s hs (Source.faulty_of_process hfail).1
  rcases Source.processAll_cases outline supply format sources with
    ⟨outs, -, hprocess⟩ | ⟨s, hs, e, hfail, -⟩
  · rw [hprocess]
    exact h.perm_log hfinished hnone
  · exact absurd (Source.faulty_of_process hfail).1 (hsound s hs)

namespace Job

/-- Whatever the order in which the tasks of a job take their steps, they come to an end, and `P`
holds of what is reported then. -/
def Always (outline : Program → Text) (j : Job) (supply : Supply) (sink : Sink)
    (P : Report → Prop) : Prop :=
  match j.sources with
  | .error e => P ⟨[], some e, []⟩
  | .ok sources =>
    TaskGroup.Inevitably outline supply j.shownIn sources
      (fun g => P (j.conclude sink sources g.log g.result)) (.start sources.length)

/-- What holds of the report in every order may be weakened. -/
lemma Always.mono {outline : Program → Text} {j : Job} {supply : Supply} {sink : Sink}
    {P Q : Report → Prop} (hPQ : ∀ report, P report → Q report)
    (h : j.Always outline supply sink P) : j.Always outline supply sink Q := by
  unfold Always at h ⊢
  split at h
  · exact hPQ _ h
  · exact h.mono fun _ => hPQ _

/-- What has been logged makes no difference to the error and the output of a run. -/
lemma conclude_events (j : Job) (sink : Sink) (sources : List Source) (events events' : List Event)
    (result : Except RunError (List Text)) :
    (j.conclude sink sources events result).error =
      (j.conclude sink sources events' result).error ∧
    (j.conclude sink sources events result).written =
      (j.conclude sink sources events' result).written ∧
    (events.Perm events' → (j.conclude sink sources events result).events.Perm
      (j.conclude sink sources events' result).events) := by
  cases result with
  | error e => exact ⟨rfl, rfl, id⟩
  | ok outs => exact ⟨rfl, rfl, fun h => h.append_right _⟩

/-- If at most one source is faulty, then the tasks of a job end in every order with the error and
the output of the sources processed one after another, and if none is faulty, with the same log up
to its order. -/
theorem always_reports_run (outline : Program → Text) (j : Job) (supply : Supply) (sink : Sink)
    (hone : Source.AtMostOneFaulty supply j.shownIn j.selection) :
    j.Always outline supply sink fun report =>
      report.error = (j.runWith outline supply sink).error ∧
      report.written = (j.runWith outline supply sink).written ∧
      ((∀ s ∈ j.selection, ¬ s.Faulty supply j.shownIn) →
        report.events.Perm (j.runWith outline supply sink).events) := by
  by_cases hselect : j.Unselectable
  · obtain ⟨e, -, he⟩ := sources_of_unselectable hselect
    rw [runWith_of_sources_error he]
    simp [Always, he]
  · have hsources := sources_of_not_unselectable hselect
    simp only [Always, hsources]
    refine TaskGroup.sound_start.inevitably ?_
    intro g hg hfinished
    rw [runWith_of_sources_ok hsources, hg.result_eq hfinished hone]
    obtain ⟨herror, hwritten, hevents⟩ := j.conclude_events sink j.selection g.log
      (Source.processAll outline supply j.shownIn j.selection).2
      (Source.processAll outline supply j.shownIn j.selection).1
    exact ⟨herror, hwritten, fun hsound => hevents (hg.perm_events hfinished hsound)⟩

/-- When the sum in the second of three files is nested too deeply to be shown as JSON, that is the
error in every order, although the tasks of the other files may be canceled.  Without this file the
other two are shown in every order. -/
theorem always_reports_sums :
    let deep : Job := ⟨[], [utf8 "a", utf8 "b", utf8 "c"], utf8 "json"⟩
    let flat : Job := ⟨[], [utf8 "a", utf8 "c"], utf8 "sexpr"⟩
    Source.AtMostOneFaulty sumFiles deep.shownIn deep.selection ∧
      (Source.input (utf8 "b")).Faulty sumFiles deep.shownIn ∧
      (∀ outline sink, deep.Always outline sumFiles sink fun report =>
        report.error = some deepSumError ∧ report.written = []) ∧
      Source.AtMostOneFaulty sumFiles flat.shownIn flat.selection ∧
      ∀ outline failure, flat.Always outline sumFiles ⟨none, failure⟩ fun report =>
        report.error = none ∧ report.written = utf8 "# a\n(1+1);\n# c\n1;\n" := by
  intro deep flat
  have hsecond : ∀ (i : ℕ) (s : Source), deep.selection[i]? = some s →
      s.Faulty sumFiles deep.shownIn → i = 1 := by
    intro i s hs hfaulty
    match i, hs with
    | 0, hs =>
      cases hs
      obtain ⟨out, hshows⟩ := Source.exists_shows_sumFiles_json (fun _ => []) (.inl rfl)
      exact absurd hfaulty hshows.not_faulty
    | 1, _ => rfl
    | 2, hs =>
      cases hs
      obtain ⟨out, hshows⟩ := Source.exists_shows_sumFiles_json (fun _ => []) (.inr rfl)
      exact absurd hfaulty hshows.not_faulty
  have hdeep : Source.AtMostOneFaulty sumFiles deep.shownIn deep.selection := by
    intro i k s t hs ht hfaulty hfaulty'
    rw [hsecond i s hs hfaulty, hsecond k t ht hfaulty']
  have hflat : Source.AtMostOneFaulty sumFiles flat.shownIn flat.selection := by
    intro i k s t hs _ hfaulty _
    match i, hs with
    | 0, hs =>
      cases hs
      exact absurd hfaulty (Source.shows_sumFiles_a fun _ => []).not_faulty
    | 1, hs =>
      cases hs
      exact absurd hfaulty (Source.shows_sumFiles_c fun _ => []).not_faulty
  refine ⟨hdeep, ?_, fun outline sink => ?_, hflat, fun outline failure => ?_⟩
  · exact (Source.faulty_of_process (Source.process_sumFiles_b fun _ => [])).1
  · have hrun : (deep.runWith outline sumFiles sink).error = some deepSumError ∧
        (deep.runWith outline sumFiles sink).written = [] := by
      have hsources : deep.sources = .ok deep.selection := rfl
      have hall : (Source.processAll outline sumFiles deep.shownIn deep.selection).1 =
          .error deepSumError := Source.processAll_sumFiles_json outline [.input (utf8 "c")]
      exact runWith_of_processAll_error hsources hall
    refine (always_reports_run outline deep sumFiles sink hdeep).mono ?_
    rintro report ⟨herror, hwritten, -⟩
    exact ⟨herror.trans hrun.1, hwritten.trans hrun.2⟩
  · have hrun : (flat.runWith outline sumFiles ⟨none, failure⟩).error = none ∧
        (flat.runWith outline sumFiles ⟨none, failure⟩).written =
          utf8 "# a\n(1+1);\n# c\n1;\n" := by
      have hall : (Source.processAll outline sumFiles flat.shownIn flat.selection).1 =
          .ok [utf8 "(1+1);\n", utf8 "1;\n"] := by
        have hselection : flat.selection = [.input (utf8 "a"), .input (utf8 "c")] := rfl
        have hformat : flat.shownIn = .sexpr := rfl
        rw [hformat, hselection,
          Source.processAll_cons_of_ok (Source.process_of_shows (Source.shows_sumFiles_a outline)),
          Source.processAll_cons_of_ok (Source.process_of_shows (Source.shows_sumFiles_c outline))]
        rfl
      have hsources : flat.sources = .ok flat.selection := rfl
      rw [runWith_of_sources_ok hsources, hall]
      exact ⟨rfl, rfl⟩
    refine (always_reports_run outline flat sumFiles _ hflat).mono ?_
    rintro report ⟨herror, hwritten, -⟩
    exact ⟨herror.trans hrun.1, hwritten.trans hrun.2⟩

end Job

end ExprLang
