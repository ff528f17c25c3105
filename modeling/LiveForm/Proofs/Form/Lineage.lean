import Mathlib
import LiveForm.Form.Definition
import LiveForm.Proofs.Formula.Code
import LiveForm.Proofs.Value.Keys
import LiveForm.Proofs.Value.Written

/-!
# The line of a group

A group has at most one parent, so from a group outwards there is only one way to go. It ends at a
group without a parent, at a parent that is not defined, or never: on a cycle. The line of a group
is the way that ends well, read from the outside (`Line`). A definition is refused for its groups
just if something names a group that is not defined or if the parents run in a cycle; in one that is
accepted every group has its line, and the chain of the group is that line (`ofValue_groups`).

There is only one line, and going outwards makes it shorter. Hence no group lies on a cycle or
stands twice in its line.
-/

namespace LiveForm

/-- A loop that only checks comes off well if every check does. -/
theorem forM_eq_ok {α ε : Type} {f : α → Except ε Unit} {l : List α} :
    forM l f = .ok () ↔ ∀ a ∈ l, f a = .ok () := by
  induction l with
  | nil => simp [pure, Except.pure]
  | cons a l ih =>
    rw [List.forM_cons, List.forall_mem_cons, ← ih]
    cases h : f a with
    | error e => simp [bind, Except.bind]
    | ok u => simp [bind, Except.bind]

theorem forM_failsOnly {α ε : Type} {P : ε → Prop} {f : α → Except ε Unit} {l : List α}
    (h : ∀ a ∈ l, FailsOnly P (f a)) : FailsOnly P (forM l f) := by
  induction l with
  | nil => exact FailsOnly.ok _
  | cons a l ih =>
    obtain ⟨ha, hl⟩ := List.forall_mem_cons.1 h
    rw [List.forM_cons]
    exact ha.bind fun _ _ => ih hl

theorem andThen_eq_ok {ε : Type} {x y : Except ε Unit} :
    (x >>= fun _ => y) = .ok () ↔ x = .ok () ∧ y = .ok () := by
  cases x with
  | error e => simp [bind, Except.bind]
  | ok u => simp [bind, Except.bind]

/-- It names no group, or one by a text. -/
inductive GroupRef.IsPlain : GroupRef → Prop
  | none : IsPlain .none
  | named (a : String) : IsPlain (.named (.text a))

namespace Definition

/-- Groups are named by texts, where they are defined and where they are referred to. -/
structure TextGroups (d : Definition) : Prop where
  names : ∀ e ∈ d.groups, ∃ a, e.1 = .text a
  fields : ∀ e ∈ d.fields, e.2.group.IsPlain
  parents : ∀ e ∈ d.groups, e.2.parent.IsPlain

/-- Some field is in a group that is not defined, or some group has a parent that is not. -/
def Dangles (d : Definition) : Prop :=
  (∃ e ∈ d.fields, ∃ k, e.2.group = .named k ∧ Table.has k d.groups = false) ∨
    ∃ e ∈ d.groups, ∃ k, e.2.parent = .named k ∧ Table.has k d.groups = false

/-- The one group has the other as its parent. -/
def Inside (d : Definition) (inner outer : Key) : Prop :=
  ∃ g, Table.get? inner d.groups = some g ∧ g.parent = .named outer

/-- The parents run in a cycle. -/
def Cyclic (d : Definition) : Prop :=
  ∃ k, Relation.TransGen d.Inside k k

variable {d : Definition}

/-! ### Lines -/

/-- A group with its ancestors, outermost first. -/
inductive Line (d : Definition) : GroupRef → List Group → Prop
  | none : Line d .none []
  | named {k : Key} {g : Group} {line : List Group} (found : Table.get? k d.groups = some g)
      (outer : Line d g.parent line) : Line d (.named k) (line ++ [g])

namespace Line

variable {ref : GroupRef} {k : Key} {line line' : List Group}

theorem unique (h : d.Line ref line) (h' : d.Line ref line') : line = line' := by
  induction h generalizing line' with
  | none => cases h'; rfl
  | named found outer ih =>
    obtain _ | ⟨found', outer'⟩ := h'
    obtain rfl := Option.some.inj (found.symm.trans found')
    rw [ih outer']

/-- Going outwards makes the line shorter. -/
theorem shorter {k' : Key} (h : d.Line (.named k) line) (hk : Relation.TransGen d.Inside k k') :
    ∃ line', d.Line (.named k') line' ∧ line'.length < line.length := by
  have step : ∀ {k k' : Key} {line : List Group}, d.Line (.named k) line → d.Inside k k' →
      ∃ line', d.Line (.named k') line' ∧ line'.length < line.length := by
    rintro k k' _ (_ | ⟨found, outer⟩) ⟨g, found', hparent⟩
    obtain rfl := Option.some.inj (found.symm.trans found')
    rw [hparent] at outer
    exact ⟨_, outer, by simp⟩
  induction hk with
  | single hk => exact step h hk
  | tail _ hk ih =>
    obtain ⟨line', hline', hlt⟩ := ih
    obtain ⟨line'', hline'', hlt'⟩ := step hline' hk
    exact ⟨line'', hline'', hlt'.trans hlt⟩

/-- What has a line is on no cycle. -/
theorem not_cycle (h : d.Line (.named k) line) : ¬ Relation.TransGen d.Inside k k := by
  intro hk
  obtain ⟨line', hline', hlt⟩ := h.shorter hk
  exact absurd (congrArg List.length (h.unique hline')) hlt.ne'

/-- A group of the line has a line of its own, of which it is the end. -/
theorem mem (h : d.Line ref line) {g : Group} (hg : g ∈ line) :
    (∃ k, Table.get? k d.groups = some g) ∧
      ∃ outer, d.Line g.parent outer ∧ outer.length < line.length := by
  induction h with
  | none => exact nomatch hg
  | named found outer ih =>
    rcases List.mem_append.1 hg with hg | hg
    · obtain ⟨hfound, line', hline', hlt⟩ := ih hg
      exact ⟨hfound, line', hline', hlt.trans (by simp)⟩
    · obtain rfl := List.mem_singleton.1 hg
      exact ⟨⟨_, found⟩, _, outer, by simp⟩

theorem getLast (h : d.Line (.named k) line) :
    ∃ g ∈ line.getLast?, Table.get? k d.groups = some g := by
  obtain _ | ⟨found, outer⟩ := h
  exact ⟨_, List.getLast?_concat, found⟩

theorem head (h : d.Line (.named k) line) : ∃ g ∈ line.head?, g.parent = .none := by
  generalize href : GroupRef.named k = ref at h
  induction h generalizing k with
  | none => cases href
  | @named k g line found outer ih =>
    cases hparent : g.parent with
    | none =>
      rw [hparent] at outer
      cases outer
      exact ⟨g, rfl, hparent⟩
    | odd v =>
      rw [hparent] at outer
      cases outer
    | named k' =>
      obtain ⟨top, htop, hnone⟩ := ih hparent.symm
      rw [Option.mem_def] at htop
      exact ⟨top, by simp [List.head?_append, htop], hnone⟩

theorem isChain (h : d.Line ref line) : line.IsChain fun outer inner =>
    ∃ k, inner.parent = .named k ∧ Table.get? k d.groups = some outer := by
  induction h with
  | none => exact .nil
  | @named k g line found outer ih =>
    refine List.isChain_append.2 ⟨ih, .singleton _, fun last hlast inner hinner => ?_⟩
    obtain rfl := Option.some.inj hinner
    cases hparent : g.parent with
    | none =>
      rw [hparent] at outer
      cases outer
      exact nomatch hlast
    | odd v =>
      rw [hparent] at outer
      cases outer
    | named k' =>
      rw [hparent] at outer
      obtain ⟨last', hlast', hfound⟩ := outer.getLast
      obtain rfl := Option.some.inj (hlast.symm.trans hlast')
      exact ⟨k', rfl, hfound⟩

end Line

/-! ### Groups and their names -/

/-- Each group has the name under which it is defined. -/
def NamesGroups (d : Definition) : Prop :=
  ∀ e ∈ d.groups, e.2.name = e.1

theorem name_of_get? {groups : Table Key Group} (hnames : ∀ e ∈ groups, e.2.name = e.1) {k : Key}
    {g : Group} (h : Table.get? k groups = some g) : (g.name == k) = true := by
  induction groups with
  | nil => exact nomatch h
  | cons e groups ih =>
    obtain ⟨hname, hnames⟩ := List.forall_mem_cons.1 hnames
    rw [Table.get?] at h
    split at h
    · next hk =>
      obtain rfl := Option.some.inj h
      rwa [hname]
    · exact ih hnames h

/-- Groups that are found under some keys and have one name are one group. -/
theorem eq_of_name_eq {groups : Table Key Group} (hnames : ∀ e ∈ groups, e.2.name = e.1)
    {k k' : Key} {g g' : Group} (h : Table.get? k groups = some g)
    (h' : Table.get? k' groups = some g') (hname : g.name = g'.name) : g = g' := by
  induction groups with
  | nil => exact nomatch h
  | cons e groups ih =>
    have hk := name_of_get? hnames h
    have hk' := name_of_get? hnames h'
    obtain ⟨he, hnames⟩ := List.forall_mem_cons.1 hnames
    rw [Table.get?] at h h'
    -- A name that meets the one key meets the other, so that both keys stop at the first entry.
    by_cases hek : (e.1 == k) = true <;> by_cases hek' : (e.1 == k') = true
    · rw [if_pos hek] at h
      rw [if_pos hek'] at h'
      exact Option.some.inj (h.symm.trans h')
    · rw [if_pos hek] at h
      obtain rfl := Option.some.inj h
      rw [← hname, he] at hk'
      exact absurd hk' hek'
    · rw [if_pos hek'] at h'
      obtain rfl := Option.some.inj h'
      rw [hname, he] at hk
      exact absurd hk hek
    · rw [if_neg hek] at h
      rw [if_neg hek'] at h'
      exact ih hnames h h'

/-- No name stands twice in a line: the second time the line would begin anew. -/
theorem Line.nodup {ref : GroupRef} {line : List Group} (h : d.Line ref line)
    (hnames : d.NamesGroups) : (line.map Group.name).Nodup := by
  induction h with
  | none => exact List.nodup_nil
  | @named k g line found outer ih =>
    rw [List.map_append, List.map_singleton, List.nodup_append]
    refine ⟨ih, List.nodup_singleton _, fun name hname name' hname' heq => ?_⟩
    obtain ⟨g', hg', rfl⟩ := List.mem_map.1 hname
    obtain rfl := List.mem_singleton.1 hname'
    obtain ⟨⟨k', found'⟩, outer', houter', hlt⟩ := outer.mem hg'
    obtain rfl := eq_of_name_eq hnames found' found heq
    exact absurd (congrArg List.length (houter'.unique outer)) hlt.ne

theorem readAll_gives {κ α : Type} {name : Key → κ} {read : κ → Value → Except Fault α}
    {P : κ × α → Prop} (h : ∀ k v, LiveForm.Gives (fun a => P (k, a)) (read k v))
    (es : List (Key × Value)) : LiveForm.Gives (fun t => ∀ e ∈ t, P e) (readAll name read es) := by
  induction es with
  | nil => exact .ok (List.forall_mem_nil _)
  | cons e es ih =>
    rw [readAll]
    exact (h _ _).bind fun a ha => ih.bind fun t ht => .ok (List.forall_mem_cons.2 ⟨ha, ht⟩)

theorem read_namesGroups {v : Value} (h : read v = .ok d) : d.NamesGroups := by
  have hgroup : ∀ k v, LiveForm.Gives (fun g : Group => g.name = k) (readGroup k v) := fun k v =>
    .after fun _ => .after fun _ => .after fun _ => .after fun _ => .ok rfl
  have hread : LiveForm.Gives NamesGroups (read v) := by
    cases v with
    | map es =>
      -- However the fields are given, the groups are read in the same way.
      rw [read]
      split
      case' isFalse => split
      all_goals
        refine .after fun _ => .after fun _ => .after fun _ => .after fun _ => .after fun _ => ?_
        exact (readAll_gives hgroup _).bind fun groups hgroups => .after fun _ => .ok hgroups
    | _ => exact .error _
  exact hread d h

/-! ### Chains -/

/-- The chain that is found is the line of the group, before what had been found already. -/
theorem line_of_chainFrom {start : Key} {unseen : Names Key} {ref : GroupRef}
    {found chain : List Group} (h : chainFrom d.groups start unseen ref found = .ok chain) :
    ∃ line, d.Line ref line ∧ chain = line ++ found := by
  fun_induction chainFrom d.groups start unseen ref found with
  | case1 unseen found => exact ⟨[], .none, (Except.ok.inj h).symm⟩
  | case2 | case3 | case5 => exact nomatch h
  | case4 unseen found k g hg _ _ ih =>
    obtain ⟨line, hline, rfl⟩ := ih h
    exact ⟨line ++ [g], .named hg hline, by simp⟩

theorem line_of_chain {ref : GroupRef} {chain : List Group} (h : d.chain ref = .ok chain) :
    d.Line ref chain := by
  unfold Definition.chain at h
  split at h
  · obtain rfl := Except.ok.inj h
    exact .none
  · cases h
  · obtain ⟨line, hline, rfl⟩ := line_of_chainFrom h
    rwa [List.append_nil]

/-- If every parent is defined, nothing but a cycle is in the way of a chain. -/
theorem chainFrom_outcome (hd : ¬ d.Dangles) (ht : d.TextGroups) {start : Key}
    {unseen : Names Key} {ref : GroupRef} {found : List Group} (hplain : ref.IsPlain)
    (hdefined : ∀ k, ref = .named k → Table.has k d.groups)
    (hseen : ∀ k, Table.has (.text k) d.groups → unseen.any (· == .text k) = false →
      ∀ j, ref = .named j → Relation.TransGen d.Inside (.text k) j) :
    (∃ chain, chainFrom d.groups start unseen ref found = .ok chain) ∨
      d.Cyclic ∧ ∃ e, chainFrom d.groups start unseen ref found = .error (.form e) := by
  fun_induction chainFrom d.groups start unseen ref found with
  | case1 unseen found => exact .inl ⟨_, rfl⟩
  | case2 => exact nomatch hplain
  | case3 unseen found k hk =>
    have hhas := hdefined k rfl
    rw [Table.has, hk] at hhas
    exact nomatch hhas
  | case5 unseen found k g hg hmet =>
    obtain _ | ⟨a⟩ := hplain
    exact .inr ⟨⟨.text a, hseen a (hdefined _ rfl) (by simpa using hmet) _ rfl⟩, _, rfl⟩
  | case4 unseen found k g hg hunseen _ ih =>
    obtain _ | ⟨a⟩ := hplain
    obtain ⟨k', hmem⟩ := Table.exists_mem_of_get? hg
    refine ih (ht.parents _ hmem) (fun j hj => ?_) (fun b hb hmet j hj => ?_)
    · by_contra hnone
      exact hd (.inr ⟨_, hmem, j, hj, by simpa using hnone⟩)
    · -- A name that has been met was met before, or it is the one that is met now.
      by_cases hab : a = b
      · subst hab
        exact .single ⟨g, hg, hj⟩
      · refine (hseen b hb ?_ _ rfl).tail ⟨g, hg, hj⟩
        rw [Bool.eq_false_iff, ne_eq, List.any_eq_true] at hmet ⊢
        rintro ⟨k, hk, hkb⟩
        refine hmet ⟨k, List.mem_filter.2 ⟨hk, ?_⟩, hkb⟩
        obtain rfl := Key.eq_text hkb
        simpa [bne, Key.text_beq_text] using hab

theorem chain_outcome (hd : ¬ d.Dangles) (ht : d.TextGroups) {k : Key}
    (hk : k ∈ Table.keys d.groups) :
    (∃ chain, d.chain (groupNamed k) = .ok chain) ∨
      d.Cyclic ∧ ∃ e, d.chain (groupNamed k) = .error (.form e) := by
  obtain ⟨e, he, rfl⟩ := List.mem_map.1 hk
  obtain ⟨a, ha⟩ := ht.names e he
  rw [ha] at hk ⊢
  have hhas : ∀ b, Table.has (.text b) d.groups →
      (Table.keys d.groups).any (· == .text b) ≠ false := by
    intro b hb
    rw [Table.any_keys, ← Table.has, hb]
    exact Bool.noConfusion
  refine chainFrom_outcome hd ht (.named a) (fun k hk' => ?_)
    fun b hb hmet => absurd hmet (hhas b hb)
  obtain rfl := GroupRef.named.inj hk'
  rw [Table.has, ← Table.any_keys, List.any_eq_true]
  exact ⟨.text a, hk, by simp [Key.text_beq_text]⟩

/-! ### The check -/

theorem checkRef_eq_ok {refuse : String → FormError} {ref : GroupRef} (h : ref.IsPlain) :
    d.checkRef refuse ref = .ok () ↔ ∀ k, ref = .named k → Table.has k d.groups := by
  cases h with
  | none => simp [checkRef]
  | named a =>
    cases hhas : Table.has (.text a) d.groups with
    | true => simp [checkRef, hhas]
    | false =>
      have hfails : d.checkRef refuse (.named (.text a)) = .error (.form (refuse a)) := by
        simp [checkRef, hhas, Key.plain, Fault.ofNumber, Except.mapError, bind, Except.bind, throw,
          throwThe, MonadExceptOf.throw]
      simp [hfails, hhas]

theorem checkRef_failsOnly {refuse : String → FormError} {ref : GroupRef} (h : ref.IsPlain) :
    FailsOnly (fun fault => ∃ e, fault = .form e) (d.checkRef refuse ref) := by
  cases h with
  | none => exact .ok _
  | named a =>
    rw [checkRef]
    split
    · exact .ok _
    · exact .error ⟨_, rfl⟩

theorem check_eq_ok : d.check = .ok () ↔
    (∀ e ∈ d.fields, d.checkRef (.unknownGroup e.2.name.shown) e.2.group = .ok ()) ∧
    (∀ e ∈ d.groups, d.checkRef (.unknownParent e.2.name.shown) e.2.parent = .ok ()) ∧
    ∀ k ∈ Table.keys d.groups, ∃ chain, d.chain (groupNamed k) = .ok chain := by
  have hchains : (∀ e ∈ d.groups, (do let _ ← d.chain (groupNamed e.1)) = .ok ()) ↔
      ∀ k ∈ Table.keys d.groups, ∃ chain, d.chain (groupNamed k) = .ok chain := by
    rw [Table.keys, List.forall_mem_map]
    refine forall₂_congr fun e _ => ?_
    cases d.chain (groupNamed e.1) with
    | error fault => simp [bind, Except.bind]
    | ok chain => simp [bind, Except.bind, pure, Except.pure]
  rw [check, andThen_eq_ok, andThen_eq_ok, ← hchains]
  simp only [List.forM_eq_forM, forM_eq_ok]

/-- Nothing dangles just if both loops over the names that are referred to come off well. -/
theorem not_dangles_iff (ht : d.TextGroups) : ¬ d.Dangles ↔
    (∀ e ∈ d.fields, d.checkRef (.unknownGroup e.2.name.shown) e.2.group = .ok ()) ∧
    ∀ e ∈ d.groups, d.checkRef (.unknownParent e.2.name.shown) e.2.parent = .ok () := by
  rw [Dangles, not_or]
  push Not
  simp only [ne_eq, Bool.not_eq_false]
  refine and_congr (forall₂_congr fun e he => ?_) (forall₂_congr fun e he => ?_)
  · exact (checkRef_eq_ok (ht.fields e he)).symm
  · exact (checkRef_eq_ok (ht.parents e he)).symm

/-- What is in the way of a definition are names of groups that are not defined, and cycles. -/
theorem check_iff (ht : d.TextGroups) : d.check = .ok () ↔ ¬ (d.Dangles ∨ d.Cyclic) := by
  rw [check_eq_ok, ← and_assoc, ← not_dangles_iff ht, not_or]
  refine and_congr_right fun hd => ⟨?_, ?_⟩
  · rintro hchains ⟨k, hk⟩
    obtain ⟨_, ⟨g, hg, -⟩, -⟩ := Relation.TransGen.head'_iff.1 hk
    have hany : (Table.keys d.groups).any (· == k) := by rw [Table.any_keys, hg]; rfl
    obtain ⟨k', hk', hmeets⟩ := List.any_eq_true.1 hany
    obtain ⟨e, he, rfl⟩ := List.mem_map.1 hk'
    obtain ⟨a, ha⟩ := ht.names e he
    rw [ha] at hmeets hk'
    obtain rfl := Key.text_eq hmeets
    obtain ⟨chain, hchain⟩ := hchains _ hk'
    exact (line_of_chain hchain).not_cycle hk
  · intro hc k hk
    exact (chain_outcome hd ht hk).resolve_right fun h => hc h.1

/-- What is refused for its groups is refused with an error of the form. -/
theorem check_failsOnly (ht : d.TextGroups) :
    FailsOnly (fun fault => ∃ e, fault = .form e) d.check := by
  simp only [check, List.forM_eq_forM]
  refine (forM_failsOnly fun e he => checkRef_failsOnly (ht.fields e he)).bind fun _ hfields => ?_
  refine (forM_failsOnly fun e he => checkRef_failsOnly (ht.parents e he)).bind fun _ hparents => ?_
  refine forM_failsOnly fun e he => FailsOnly.bind (fun fault hfault => ?_) fun _ _ => .ok _
  have hd : ¬ d.Dangles :=
    (not_dangles_iff ht).2 ⟨forM_eq_ok.1 hfields, forM_eq_ok.1 hparents⟩
  rcases chain_outcome hd ht (List.mem_map_of_mem he) with ⟨chain, hchain⟩ | ⟨-, e', he'⟩
  · rw [hchain] at hfault
    exact nomatch hfault
  · exact ⟨e', Except.error.inj (hfault.symm.trans he')⟩

theorem ofValue_eq {v : Value} (h : read v = .ok d) : ofValue v = d.check.map fun _ => d := by
  rw [ofValue, h]
  rfl

/-- A line of groups: it begins with a group that has no parent, each next group has the one before
as its parent, none is there twice, and it ends with the group of the key. -/
structure IsLineTo (d : Definition) (k : Key) (chain : List Group) : Prop where
  top : ∃ g ∈ chain.head?, g.parent = .none
  linked : chain.IsChain fun outer inner =>
    ∃ k, inner.parent = .named k ∧ Table.get? k d.groups = some outer
  last : ∃ g ∈ chain.getLast?, Table.get? k d.groups = some g ∧ (g.name == k) = true
  nodup : (chain.map Group.name).Nodup

/-- **Groups are checked exactly.** A definition whose groups have texts as names is refused just if
a field or a group refers to a group that is not defined or if the parents run in a cycle; and in a
definition that is accepted the chain of every group is a line from a group without a parent to the
group itself. -/
theorem ofValue_groups {v : Value} (hread : read v = .ok d) :
    (d.TextGroups →
      ((∃ e, ofValue v = .error (.form e)) ↔ d.Dangles ∨ d.Cyclic) ∧
      (ofValue v = .ok d ↔ ¬ (d.Dangles ∨ d.Cyclic))) ∧
    (ofValue v = .ok d → ∀ k ∈ Table.keys d.groups, k ≠ .null →
      ∃ chain, d.chain (.named k) = .ok chain ∧ d.IsLineTo k chain) := by
  have hnames := read_namesGroups hread
  rw [ofValue_eq hread]
  refine ⟨fun ht => ?_, fun haccepted k hk hnull => ?_⟩
  · rw [← check_iff ht, ← not_iff_not (b := _ ∨ _), ← check_iff ht]
    have hfails := check_failsOnly ht
    cases hcheck : d.check with
    | ok u => simp [Except.map]
    | error fault =>
      obtain ⟨e, rfl⟩ := hfails fault hcheck
      simp [Except.map]
  · have hcheck : d.check = .ok () := by
      cases hcheck : d.check with
      | ok u => rfl
      | error fault =>
        rw [hcheck] at haccepted
        exact nomatch haccepted
    obtain ⟨chain, hchain⟩ := (check_eq_ok.1 hcheck).2.2 k hk
    have hnamed : groupNamed k = .named k := by
      cases k with
      | null => exact absurd rfl hnull
      | _ => rfl
    rw [hnamed] at hchain
    have hline := line_of_chain hchain
    obtain ⟨g, hg, hfound⟩ := hline.getLast
    exact ⟨chain, hchain, hline.head, hline.isChain, ⟨g, hg, hfound, name_of_get? hnames hfound⟩,
      hline.nodup hnames⟩

/-- Two groups, the second inside a given one. -/
def twoGroups (parent : String) : Definition where
  groups := [(.text "outer", { name := .text "outer" }),
    (.text "inner", { name := .text "inner", parent := .named (.text parent) })]

/-- The value from which the two groups are read. -/
def twoGroupsValue (parent : String) : Value :=
  .map [(.text "groups", .map [(.text "outer", .map []),
    (.text "inner", .map [(.text "parent", .text parent)])])]

theorem ofValue_groups_two :
    (∃ chain, (twoGroups "outer").chain (.named (.text "inner")) = .ok chain ∧
      (twoGroups "outer").IsLineTo (.text "inner") chain) ∧
    ∃ e, ofValue (twoGroupsValue "inner") = .error (.form e) := by
  have hread : ∀ parent, read (twoGroupsValue parent) = .ok (twoGroups parent) := fun _ => rfl
  have htext : ∀ parent, (twoGroups parent).TextGroups := by
    intro parent
    refine ⟨?_, List.forall_mem_nil _, ?_⟩
    · simp [twoGroups]
    · simp [twoGroups, GroupRef.IsPlain.none, GroupRef.IsPlain.named]
  have hkey : Table.get? (.text "inner") (twoGroups "inner").groups = some
      { name := .text "inner", parent := .named (.text "inner") } := rfl
  have haccepted : ofValue (twoGroupsValue "outer") = .ok (twoGroups "outer") := by
    cbv
  exact ⟨(ofValue_groups (hread "outer")).2 haccepted _ (by simp [twoGroups, Table.keys]) (by simp),
    ((ofValue_groups (hread "inner")).1 (htext "inner")).1.2 (.inr ⟨_, .single ⟨_, hkey, rfl⟩⟩)⟩

end Definition

end LiveForm
