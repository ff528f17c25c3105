import Mathlib
import LiveForm.Proofs.AutoSave.Account
import LiveForm.Proofs.AutoSave.Version

/-!
# Superseded runs

A run that has been superseded before it has submitted waits for its next turn, and ends with it. It
ends aborted, and then its fields wait again or a newer run has them all; only if the host fails in
that very turn it ends failed, and then its fields are lost unless a newer run has them
(`superseded_ends_at_next_turn`).

* `Run.resume_of_superseded`: what a superseded run does when it goes on.
* `Course.take_keeps`: a cue that is no turn of a run leaves the run as it is.
* `Course.carried_after`: a run holds its fields until a newer run takes them over.
-/

namespace LiveForm

namespace Run

variable {r : Run} {s : Sight}

theorem settle_of_superseded (h : r.superseded s = true) (names : FieldNames) (deadline : Instant)
    (phase : Phase) (move : Move) :
    r.settle s names deadline phase move = .finish .aborted [] := by
  unfold settle
  simp only [if_pos h, ite_self]

/-- **A superseded run gives up when it goes on**, unless the validation for which it has asked has
failed. -/
theorem resume_of_superseded (h : r.superseded s = true) (hphase : r.phase ≠ .submitting)
    (answer : Except Fault Bool) :
    r.resume s answer = .finish .aborted [] ∨
      (r.phase = .validating ∧ (∃ f, answer = .error f) ∧ r.resume s answer = r.fail) := by
  rcases phase_cases r with he | (hv | ⟨p, d, hc⟩) | hs
  · obtain ⟨d, hr⟩ := resume_early he s answer
    rw [hr]
    exact Or.inl (settle_of_superseded h _ _ _ _)
  · cases answer with
    | error f => exact Or.inr ⟨hv, ⟨f, rfl⟩, by simp only [resume, hv]⟩
    | ok passed =>
      exact Or.inl (by simp only [resume, hv, if_pos h])
  · simp only [resume, hc]
    exact Or.inl (settle_of_superseded h _ _ _ _)
  · exact absurd hs hphase

end Run

namespace Task

/-- The host fails in the turn of a run that has asked it for validations. -/
def Fails (r : Run) (answer : Answer) : Prop :=
  r.phase = .validating ∧ ∃ f, answer = .error f

/-- The turn of a superseded run is its last. -/
theorem stepRun_of_superseded {w : World} {r : Run} (h : w.form.autoSave.version ≠ r.version)
    (hphase : r.phase ≠ .submitting) (answer : Answer) :
    (∃ log, stepRun w r answer = leaveRun (w.entered r) r .aborted log) ∨
      (Fails r answer ∧ ∃ log, stepRun w r answer = leaveRun (w.entered r) r .failed log) := by
  have hstep : stepRun w r answer = grant (w.entered r) r
      (r.resume (sight (w.entered r)) (answer.map Reply.holds)) := rfl
  have hold : r.superseded (sight (w.entered r)) = true := by
    simpa [Run.superseded, sight] using h
  rw [hstep]
  rcases Run.resume_of_superseded hold hphase (answer.map Reply.holds) with hr | ⟨hv, ⟨f, hf⟩, hr⟩
  · rw [hr]
    exact Or.inl ⟨_, rfl⟩
  · rw [hr]
    refine Or.inr ⟨⟨hv, ?_⟩, _, rfl⟩
    cases answer with
    | ok reply => cases hf
    | error f => exact ⟨f, rfl⟩

end Task

namespace Batch

/-- Every field of a batch stands in another batch, changed or affected as it is in the first. -/
structure Within (b c : Batch) : Prop where
  changed : ∀ f ∈ b.changed, f ∈ c.changed
  affected : ∀ f ∈ b.affected, f ∈ c.affected

theorem within_union_right (b c : Batch) : c.Within (b.union c) where
  changed := fun _ hf => Names.mem_union.2 (Or.inr hf)
  affected := fun _ hf => Names.mem_union.2 (Or.inr hf)

end Batch

namespace AutoSave

variable {a : AutoSave} {v : Nat} {batch : Batch}

/-- A run that starts has the fields of the run that holds its own. -/
theorem within_collected (hheld : a.held = [(v, batch)]) : batch.Within a.collected := by
  unfold collected
  rw [hheld]
  exact a.pending.within_union_right batch

/-- The fields that an aborted run holds wait again. -/
theorem within_pending_of_aborted (hheld : a.held = [(v, batch)]) :
    batch.Within (a.leave v .aborted).pending := by
  have hget : Table.get? v a.held = some batch := by
    rw [hheld]
    simp [Table.get?]
  unfold leave
  rw [hget]
  exact a.pending.within_union_right batch

/-- A run that has not been aborted gives nothing back. -/
theorem leave_pending {o : Outcome} (ho : o ≠ .aborted) (v : Nat) :
    (a.leave v o).pending = a.pending := by
  unfold leave
  rw [if_neg (by simpa using ho)]

/-- A run without fields of its own gives nothing back. -/
theorem leave_pending_of_ne {v' : Nat} (hheld : ∀ e ∈ a.held, e.1 = v) (hne : v' ≠ v)
    (o : Outcome) : (a.leave v' o).pending = a.pending := by
  have hget : Table.get? v' a.held = none := by
    cases hfound : Table.get? v' a.held with
    | none => rfl
    | some b => exact absurd (hheld _ (Table.mem_of_get? hfound)) hne
  unfold leave
  rw [hget]
  split <;> rfl

end AutoSave

namespace Course

variable {c c' : Course}

/-! ### Turns -/

/-- A start finds nothing to save, or a run of what has been collected. -/
theorem launch_cases (c : Course) :
    (c.saving.collected.isEmpty = true ∧
        c.launch = { c with world := c.world.withAutoSave AutoSave.disarm }) ∨
      c.saving.collected.isEmpty = false ∧ ∃ world, c.launch =
        { world
          runs := c.runs ++ [.ofAssignment ⟨c.saving.version + 1, c.saving.collected⟩]
          past := c.past ++ [.started ⟨c.saving.version + 1, c.saving.collected⟩] } := by
  have hcollected : (c.world.withAutoSave AutoSave.disarm).form.autoSave.collected =
      c.saving.collected := rfl
  unfold launch Task.saveAtOnce
  cases hs : (c.world.withAutoSave AutoSave.disarm).form.autoSave.start? with
  | none =>
    simp only [hs]
    unfold AutoSave.start? at hs
    rw [hcollected] at hs
    split at hs
    · next hempty => exact Or.inl ⟨hempty, trivial⟩
    · exact absurd hs (by simp)
  | some found =>
    obtain ⟨a, saving⟩ := found
    obtain ⟨ha, -⟩ := AutoSave.start?_eq hs
    have hfilled : c.saving.collected.isEmpty = false := by
      unfold AutoSave.start? at hs
      rw [hcollected] at hs
      split at hs
      · exact nomatch hs
      · next hfilled => simpa using hfilled
    simp only [hs, ha]
    exact Or.inr ⟨hfilled, _, rfl⟩

/-- The cue gives a turn to the run of a version. -/
inductive IsTurn (version : Nat) : Cue → Prop
  | resume (answer : Answer) : IsTurn version (.resume version answer)
  | crash : IsTurn version (.crash version)

/-- A run goes on, or another ends: the run stays if it is not the one. -/
theorem mem_settle_of_ne {r q : Run} (hq : q ∈ c.runs) (hne : q.version ≠ r.version)
    {next : Next × World} (h : Task.RunTurn (c.world.entered r) r next) :
    q ∈ (c.settle r next).runs := by
  have hbeq : (q.version == r.version) = false := by simpa using hne
  have hmap : ∀ r', q ∈ c.runs.map fun q => if q.version == r.version then r' else q :=
    fun r' => List.mem_map.2 ⟨q, hq, by simp [hbeq]⟩
  have hfilter : q ∈ c.runs.filter (·.version != r.version) :=
    List.mem_filter.2 ⟨hq, by simpa using hne⟩
  cases h with
  | leaves o log => exact hfilter
  | settles pause a d _ _ => exact hmap _
  | confirms pause a p d _ _ => exact hmap _
  | asks _ _ _ _ => exact hmap _
  | submits pause a _ _ => exact hmap _
  | submitsAndLeaves o log _ _ => exact hfilter

theorem run?_version {version : Nat} {r : Run} (h : c.run? version = some r) :
    r.version = version := by
  have hfound := List.find?_some h
  simpa using hfound

/-- **A cue that is no turn of a run leaves the run as it is.** -/
theorem take_keeps {r : Run} (hr : r ∈ c.runs) (cue : Cue) :
    r ∈ (c.take cue).runs ∨ IsTurn r.version cue := by
  -- whichever run takes the turn, the others stay
  have other {v : Nat} (hv : r.version ≠ v) {q : Run} (hrun : c.run? v = some q)
      {next : Next × World} (hturn : Task.RunTurn (c.world.entered q) q next) :
      r ∈ (c.settle q next).runs :=
    mem_settle_of_ne hr (run?_version hrun ▸ hv) hturn
  have launched : r ∈ c.launch.runs := by
    rcases c.launch_cases with ⟨-, h⟩ | ⟨-, world, h⟩
    · rw [h]
      exact hr
    · rw [h]
      exact List.mem_append_left _ hr
  cases cue with
  | mark name => exact Or.inl hr
  | change name v => exact Or.inl hr
  | cancel => exact Or.inl hr
  | host w => exact Or.inl hr
  | flush => exact Or.inl launched
  | fire => exact Or.inl launched
  | resume version answer =>
    by_cases hv : r.version = version
    · subst hv
      exact Or.inr (.resume answer)
    · refine Or.inl ?_
      cases hrun : c.run? version with
      | none =>
        simp only [take, hrun]
        exact hr
      | some q =>
        simp only [take, hrun]
        exact other hv hrun (Task.stepRun_turn c.world q answer)
  | crash version =>
    by_cases hv : r.version = version
    · subst hv
      exact Or.inr .crash
    · refine Or.inl ?_
      cases hrun : c.run? version with
      | none =>
        simp only [take, hrun]
        exact hr
      | some q =>
        simp only [take, hrun]
        exact other hv hrun (.leaves .failed _)

/-! ### Versions of runs -/

theorem Counted.version_le (h : Counted c) {r : Run} (hr : r ∈ c.runs) :
    r.version ≤ c.saving.version := by
  obtain ⟨before, since, hp⟩ := List.append_of_mem (h.runs r hr)
  rw [h.version_eq hp]
  exact Nat.le_add_right _ _

/-- No cue takes a move back. -/
theorem version_le_of_step (hs : Step c c') : c.saving.version ≤ c'.saving.version := by
  cases hs with
  | noted name affected hb _ _ =>
    rw [hb.version]
    exact Nat.le_succ _
  | cancelled hb _ _ =>
    rw [hb.version]
    exact Nat.le_succ _
  | started a ha hb _ _ =>
    rw [hb.version, ha]
    exact Nat.le_succ _
  | went hb _ _ =>
    rw [hb.version]
  | ended r o _ hb _ _ =>
    rw [hb.version, AutoSave.leave_version]

/-- A cue may end a run, or start one with a version of its own. -/
theorem versions_take (c : Course) (cue : Cue) :
    List.Sublist ((c.take cue).runs.map Run.version) (c.runs.map Run.version) ∨
      (c.take cue).runs.map Run.version = c.runs.map Run.version ++ [c.saving.version + 1] := by
  have replaced (r r' : Run) (hv : r'.version = r.version) :
      List.Sublist ((c.runs.map fun q => if q.version == r.version then r' else q).map Run.version)
        (c.runs.map Run.version) := by
    have hsame : (Run.version ∘ fun q => if q.version == r.version then r' else q) =
        Run.version := by
      funext q
      by_cases h : q.version = r.version
      · simp [h, hv]
      · simp [h]
    rw [List.map_map, hsame]
  have dropped (r : Run) :
      List.Sublist ((c.runs.filter (·.version != r.version)).map Run.version)
        (c.runs.map Run.version) :=
    List.filter_sublist.map _
  have settled {r : Run} {next : Next × World} (h : Task.RunTurn (c.world.entered r) r next) :
      List.Sublist ((c.settle r next).runs.map Run.version) (c.runs.map Run.version) := by
    cases h with
    | leaves o log => exact dropped r
    | settles pause a d _ _ => exact replaced r _ rfl
    | confirms pause a p d _ _ => exact replaced r _ rfl
    | asks _ _ _ _ => exact replaced r _ rfl
    | submits pause a _ _ => exact replaced r _ rfl
    | submitsAndLeaves o log _ _ => exact dropped r
  have launched : List.Sublist (c.launch.runs.map Run.version) (c.runs.map Run.version) ∨
      c.launch.runs.map Run.version = c.runs.map Run.version ++ [c.saving.version + 1] := by
    rcases c.launch_cases with ⟨-, h⟩ | ⟨-, world, h⟩
    · rw [h]
      exact Or.inl (.refl _)
    · rw [h, List.map_append]
      exact Or.inr rfl
  cases cue with
  | mark name => exact Or.inl (.refl _)
  | change name v => exact Or.inl (.refl _)
  | cancel => exact Or.inl (.refl _)
  | host w => exact Or.inl (.refl _)
  | flush => exact launched
  | fire => exact launched
  | resume version answer =>
    left
    simp only [take]
    cases hrun : c.run? version with
    | none => exact .refl _
    | some r => exact settled (Task.stepRun_turn c.world r answer)
  | crash version =>
    left
    simp only [take]
    cases hrun : c.run? version with
    | none => exact .refl _
    | some r => exact settled (.leaves .failed _)

/-- The runs of a course are told apart by their versions. -/
theorem distinct_after (w : World) (cues : List Cue) :
    ((after w cues).runs.map Run.version).Nodup := by
  have hboth : Counted (after w cues) ∧ ((after w cues).runs.map Run.version).Nodup := by
    refine after_induction (P := fun c => Counted c ∧ (c.runs.map Run.version).Nodup)
      ⟨counted_start w, List.nodup_nil⟩ (fun c cue ⟨hc, hd⟩ => ⟨hc.step (take_step c cue), ?_⟩) cues
    rcases c.versions_take cue with h | h
    · exact h.nodup hd
    · rw [h]
      refine List.nodup_append.2 ⟨hd, List.nodup_singleton _, ?_⟩
      intro v hv v' hv'
      obtain ⟨r, hr, rfl⟩ := List.mem_map.1 hv
      obtain rfl := List.mem_singleton.1 hv'
      have hle := hc.version_le hr
      omega
  exact hboth.2

theorem run?_of_mem (hd : (c.runs.map Run.version).Nodup) {r : Run} (hr : r ∈ c.runs) :
    c.run? r.version = some r := by
  cases hrun : c.run? r.version with
  | none =>
    have hnone := List.find?_eq_none.1 hrun r hr
    exact absurd (beq_self_eq_true r.version) hnone
  | some q => exact congrArg some (List.inj_on_of_nodup_map hd (run?_mem hrun) hr (run?_version hrun))

/-! ### Who has the fields of a run -/

/-- A run that started later has all fields of the run. -/
def TakenOver (c : Course) (r : Run) : Prop :=
  ∃ a, .started a ∈ c.past ∧ r.version < a.version ∧ r.batch.Within a.batch

theorem TakenOver.mono {r r' : Run} (h : c.TakenOver r) (hv : r.version = r'.version)
    (hbatch : r.batch = r'.batch) {later : List Happening} (hp : c'.past = c.past ++ later) :
    c'.TakenOver r' := by
  obtain ⟨a, ha, hlt, hwithin⟩ := h
  refine ⟨a, ?_, hv ▸ hlt, hbatch ▸ hwithin⟩
  rw [hp]
  exact List.mem_append_left later ha

/-- Every run under way holds its fields, or a newer run has taken them over. -/
def Carried (c : Course) : Prop :=
  ∀ r ∈ c.runs, c.saving.held = [(r.version, r.batch)] ∨ c.TakenOver r

/-- A step that starts no run keeps the runs carried. -/
theorem Carried.of_held (h : Carried c) (hheld : c'.saving.held = c.saving.held)
    (hruns : RunsGoOn c c') {later : List Happening} (hp : c'.past = c.past ++ later) :
    Carried c' := by
  intro r' hr'
  obtain ⟨r, hr, hv, hbatch⟩ := hruns r' hr'
  rcases h r hr with hholds | htaken
  · exact Or.inl (by rw [hheld, hholds, hv, hbatch])
  · exact Or.inr (htaken.mono hv hbatch hp)

theorem Carried.step (hc : Counted c) (h : Carried c) (hs : Step c c') : Carried c' := by
  cases hs with
  | noted name affected hb hr hp => exact h.of_held hb.held (.of_eq hr) hp
  | cancelled hb hr hp => exact h.of_held hb.held (.of_eq hr) hp
  | went hb hr hp =>
    have hpast : c'.past = c.past ++ [] := by rw [hp, List.append_nil]
    exact h.of_held hb.held hr hpast
  | started a ha hb hr hp =>
    intro r hmem
    rw [hr] at hmem
    rcases List.mem_append.1 hmem with hold | hnew
    · rcases h r hold with hholds | htaken
      · have hle := hc.version_le hold
        refine Or.inr ⟨a, by rw [hp]; exact List.mem_append_right _ (List.mem_singleton.2 rfl), ?_, ?_⟩
        · rw [ha]
          exact Nat.lt_succ_of_le hle
        · rw [ha]
          exact AutoSave.within_collected hholds
      · exact Or.inr (htaken.mono rfl rfl hp)
    · obtain rfl := List.mem_singleton.1 hnew
      exact Or.inl hb.held
  | ended r o _ hb hr hp =>
    intro q hq
    rw [hr] at hq
    obtain ⟨hq, hne⟩ := List.mem_filter.1 hq
    rcases h q hq with hholds | htaken
    · left
      rw [hb.held]
      exact AutoSave.leave_held_of_ne hholds (by simpa using hne) o
    · exact Or.inr (htaken.mono rfl rfl hp)

/-- **A run holds its fields until a newer run takes them over.** -/
theorem carried_after (w : World) (cues : List Cue) : Carried (after w cues) := by
  have hboth : Counted (after w cues) ∧ Carried (after w cues) := by
    refine after_induction (P := fun c => Counted c ∧ Carried c) ⟨counted_start w, ?_⟩
      (fun c cue ⟨hc, h⟩ => ⟨hc.step (take_step c cue), h.step hc (take_step c cue)⟩) cues
    intro r hr
    exact absurd hr (by simp [start])
  exact hboth.2

/-! ### The last turn of a superseded run -/

/-- The host fails in the turn that the cue gives to the run. -/
inductive HostFails (r : Run) : Cue → Prop
  | told {answer : Answer} : Task.Fails r answer → HostFails r (.resume r.version answer)
  | crash : HostFails r (.crash r.version)

/-- How a superseded run ends. An aborted run leaves its fields waiting, unless a newer run has them.
A run in whose turn the host fails leaves nothing. -/
inductive LastTurn (r : Run) (cue : Cue) (c c' : Course) : Prop
  | aborted : c'.past = c.past ++ [.ended r.version .aborted] →
      r.batch.Within c'.saving.pending ∨ c'.TakenOver r → LastTurn r cue c c'
  | failed : HostFails r cue → c'.past = c.past ++ [.ended r.version .failed] →
      c'.TakenOver r ∨ (c'.saving.pending = c.saving.pending ∧ c'.saving.held = []) →
      LastTurn r cue c c'

theorem lastTurn_aborted (h : Carried c) {r : Run} (hr : r ∈ c.runs) (cue : Cue) (log : Log) :
    LastTurn r cue c (c.settle r (Task.leaveRun (c.world.entered r) r .aborted log)) := by
  have hb := (SameBooks.entered c.world r).leave r.version .aborted
  refine .aborted rfl ?_
  rcases h r hr with hholds | htaken
  · left
    have hpending : (c.settle r (Task.leaveRun (c.world.entered r) r .aborted log)).saving.pending =
        (c.saving.leave r.version .aborted).pending := hb.pending
    rw [hpending]
    exact AutoSave.within_pending_of_aborted hholds
  · exact Or.inr (htaken.mono rfl rfl rfl)

theorem lastTurn_failed (h : Carried c) {r : Run} (hr : r ∈ c.runs) {cue : Cue}
    (hfails : HostFails r cue) (log : Log) :
    LastTurn r cue c (c.settle r (Task.leaveRun (c.world.entered r) r .failed log)) := by
  have hb := (SameBooks.entered c.world r).leave r.version .failed
  refine .failed hfails rfl ?_
  rcases h r hr with hholds | htaken
  · refine Or.inr ⟨hb.pending.trans (AutoSave.leave_pending (by simp) _), hb.held.trans ?_⟩
    have hheld : c.world.form.autoSave.held = [(r.version, r.batch)] := hholds
    rw [AutoSave.leave_held, hheld]
    simp [Table.drop]
  · exact Or.inl (htaken.mono rfl rfl rfl)

/-- The turn of a superseded run is its last. -/
theorem lastTurn_of_superseded (hd : (c.runs.map Run.version).Nodup) (h : Carried c) {r : Run}
    (hr : r ∈ c.runs) (hold : c.saving.version ≠ r.version) (hphase : r.phase ≠ .submitting)
    {cue : Cue} (hcue : IsTurn r.version cue) : LastTurn r cue c (c.take cue) := by
  have hrun := run?_of_mem hd hr
  cases hcue with
  | resume answer =>
    simp only [take, hrun]
    rcases Task.stepRun_of_superseded hold hphase answer with ⟨log, hs⟩ | ⟨hf, log, hs⟩
    · rw [hs]
      exact lastTurn_aborted h hr _ log
    · rw [hs]
      exact lastTurn_failed h hr (.told hf) log
  | crash =>
    simp only [take, hrun]
    exact lastTurn_failed h hr .crash _

/-- **A superseded run that has not submitted does nothing but end.** Whatever comes, it is still
under way as it was, or it has had a last turn: it has been aborted, and its fields wait or a newer
run has them; or the host has failed in that turn. -/
theorem superseded_ends_at_next_turn (w : World) (cues more : List Cue) (r : Run)
    (hr : r ∈ (after w cues).runs) (hphase : r.phase ≠ .submitting)
    (hold : (after w cues).saving.version ≠ r.version) :
    r ∈ (after w (cues ++ more)).runs ∨
      ∃ before cue since, more = before ++ cue :: since ∧
        LastTurn r cue (after w (cues ++ before)) (after w (cues ++ before ++ [cue])) := by
  induction more generalizing cues with
  | nil =>
    rw [List.append_nil]
    exact Or.inl hr
  | cons cue more ih =>
    rcases (after w cues).take_keeps hr cue with hstays | hturn
    · have hold' : (after w (cues ++ [cue])).saving.version ≠ r.version := by
        have hle := (counted_after w cues).version_le hr
        have hmono := version_le_of_step ((after w cues).take_step cue)
        rw [after_append]
        omega
      rw [← after_append] at hstays
      have hsplit : cues ++ cue :: more = cues ++ [cue] ++ more := by simp
      rcases ih (cues ++ [cue]) hstays hold' with hend | ⟨before, cue', since, rfl, hlast⟩
      · exact Or.inl (hsplit ▸ hend)
      · refine Or.inr ⟨cue :: before, cue', since, rfl, ?_⟩
        have hbefore : cues ++ cue :: before = cues ++ [cue] ++ before := by simp
        rw [hbefore]
        exact hlast
    · refine Or.inr ⟨[], cue, more, rfl, ?_⟩
      rw [List.append_nil, after_append]
      exact lastTurn_of_superseded (distinct_after w cues) (carried_after w cues) hr hold hphase
        hturn

/-- A run that has asked for the validation of `b`, and is then called off. -/
def calledOff : List Cue :=
  [.mark (.text "a"), .flush, .resume 2 (.ok .nothing), .cancel]

/-- The run of `calledOff`. -/
def asking : Run where
  version := 2
  batch := ⟨[.text "a"], [.text "b"]⟩
  phase := .validating

theorem runs_calledOff : (after World.bare calledOff).runs = [asking] := by cbv

/-- The run that has been called off ends when `b` has been validated. -/
theorem superseded_ends_at_next_turn_cancelled :
    let more : List Cue := [.resume 2 (.ok (.passed true))]
    asking ∈ (after World.bare calledOff).runs ∧ asking.phase ≠ .submitting ∧
      (after World.bare calledOff).saving.version ≠ asking.version ∧
      (asking ∈ (after World.bare (calledOff ++ more)).runs ∨
        ∃ before cue since, more = before ++ cue :: since ∧
          LastTurn asking cue (after World.bare (calledOff ++ before))
            (after World.bare (calledOff ++ before ++ [cue]))) := by
  intro more
  have hr : asking ∈ (after World.bare calledOff).runs := by
    rw [runs_calledOff]
    exact List.mem_singleton.2 rfl
  have hphase : asking.phase ≠ .submitting := by simp [asking]
  have hversion : (after World.bare calledOff).saving.version = 3 := by cbv
  have hold : (after World.bare calledOff).saving.version ≠ asking.version := by
    rw [hversion]
    simp [asking]
  exact ⟨hr, hphase, hold, superseded_ends_at_next_turn World.bare calledOff more asking hr hphase hold⟩

/-- If the validation of `b` fails, the run ends failed, and the change of `a` does not wait for
another. -/
theorem not_superseded_ends_aborted :
    ¬ ∀ (w : World) (cues more : List Cue) (r : Run), r ∈ (after w cues).runs →
      r.phase ≠ .submitting → (after w cues).saving.version ≠ r.version →
      ∀ o, .ended r.version o ∈ (after w (cues ++ more)).past →
        o = .aborted ∧ (r.batch.Within (after w (cues ++ more)).saving.pending ∨
          (after w (cues ++ more)).TakenOver r) := by
  intro h
  have hr : asking ∈ (after World.bare calledOff).runs := by
    rw [runs_calledOff]
    exact List.mem_singleton.2 rfl
  have hversion : (after World.bare calledOff).saving.version = 3 := by cbv
  have hpast : (after World.bare
      (calledOff ++ [.resume 2 (.error (.host "no answer"))])).past =
      [.marked (.text "a") [.text "b"], .started ⟨2, ⟨[.text "a"], [.text "b"]⟩⟩, .cancelled,
        .ended 2 .failed] := by cbv
  have hended : Happening.ended asking.version .failed ∈ (after World.bare
      (calledOff ++ [.resume 2 (.error (.host "no answer"))])).past := by
    rw [hpast]
    simp [asking]
  exact absurd (h World.bare calledOff _ asking hr (by simp [asking]) (by rw [hversion]; simp [asking])
    .failed hended).1 (by simp)

end Course

end LiveForm
