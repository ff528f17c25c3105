import Mathlib
import LiveForm.Proofs.Formula.Reads

/-!
# The nodes of a formula

A formula together with everything that stands in it. What is asked of a whole tree is asked of each
of its nodes. In a tree that has been read, the member of every access is a word, so that it can
never be taken for a position (`member_isWord_of_parse`).
-/

namespace LiveForm

namespace Expr

mutual

/-- A formula and all formulas in it, the outer ones first. -/
def nodes : Expr → List Expr
  | .literal v => [.literal v]
  | .name n => [.name n]
  | .member object m => .member object m :: object.nodes
  | .index object i => .index object i :: (object.nodes ++ i.nodes)
  | .binary op left right => .binary op left right :: (left.nodes ++ right.nodes)
  | .logical op left right => .logical op left right :: (left.nodes ++ right.nodes)
  | .unary op operand => .unary op operand :: operand.nodes
  | .conditional test consequent alternate =>
    .conditional test consequent alternate ::
      (test.nodes ++ (consequent.nodes ++ alternate.nodes))
  | .call callee args => .call callee args :: (callee.nodes ++ nodesAll args)
  | .array items => .array items :: nodesElements items
  | .sequence body => .sequence body :: nodesAll body
  | .foreign kind => [.foreign kind]

/-- The nodes of a list of formulas. -/
def nodesAll : List Expr → List Expr
  | [] => []
  | e :: rest => e.nodes ++ nodesAll rest

/-- The nodes of the elements of an array. -/
def nodesElements : List (Option Expr) → List Expr
  | [] => []
  | none :: rest => nodesElements rest
  | some e :: rest => e.nodes ++ nodesElements rest

end

end Expr

namespace Formula

/-! ### The members of a tree -/

/-- The nodes of a phrase. -/
def Phrase.nodes : Phrase → List Expr
  | .formula _ e => e.nodes
  | .arguments args | .moreArguments args => Expr.nodesAll args
  | .elements items => Expr.nodesElements items

/-- Every member that some nodes ask for is the name of a lexeme of the row. -/
def MembersFrom (ls : List Lexeme) (nodes : List Expr) : Prop :=
  ∀ object name, .member object name ∈ nodes → ∃ l ∈ ls, memberName? l = some name

namespace MembersFrom

variable {ls ks : List Lexeme} {nodes more : List Expr}

theorem nil : MembersFrom ls [] :=
  fun _ _ h => absurd h List.not_mem_nil

theorem mono (h : MembersFrom ls nodes) (hsub : ls ⊆ ks) : MembersFrom ks nodes := by
  intro object name hmem
  obtain ⟨l, hl, hname⟩ := h object name hmem
  exact ⟨l, hsub hl, hname⟩

theorem append (h : MembersFrom ls nodes) (hmore : MembersFrom ls more) :
    MembersFrom ls (nodes ++ more) := by
  intro object name hmem
  exact (List.mem_append.1 hmem).elim (h object name) (hmore object name)

theorem cons (h : MembersFrom ls nodes) {e : Expr} (he : ∀ object name, e ≠ .member object name) :
    MembersFrom ls (e :: nodes) := by
  intro object name hmem
  rcases List.mem_cons.1 hmem with rfl | hmem
  · exact absurd rfl (he object name)
  · exact h object name hmem

end MembersFrom

theorem atom?_members {l : Lexeme} {e : Expr} (h : atom? l = some e) (ls : List Lexeme) :
    MembersFrom ls e.nodes := by
  unfold atom? at h
  split at h <;> simp only [Option.some.injEq, reduceCtorEq] at h <;> subst h
  all_goals exact MembersFrom.nil.cons fun _ _ => Expr.noConfusion

theorem operator?_members {level : Nat} {s : Symbol} {make : Expr → Expr → Expr}
    (h : operator? level s = some make) {ls : List Lexeme} {left right : Expr}
    (hl : MembersFrom ls left.nodes) (hr : MembersFrom ls right.nodes) :
    MembersFrom ls (make left right).nodes := by
  unfold operator? at h
  split at h <;> simp only [Option.some.injEq, reduceCtorEq] at h <;> subst h
  all_goals exact (hl.append hr).cons fun _ _ => Expr.noConfusion

/-- In a row that stands for a phrase stands every member that the phrase asks for. -/
theorem Derives.members {p : Phrase} {ls : List Lexeme} (h : Derives p ls) :
    MembersFrom ls p.nodes := by
  induction h with
  | atom ha => exact atom?_members ha _
  | group _ ih => exact ih.mono (by simp)
  | array _ ih => exact (ih.mono (by simp)).cons fun _ _ => Expr.noConfusion
  | ofAtom _ ih | ofAccess _ ih | ofLevel _ ih | ofLevels _ ih => exact ih
  | @member e ls l name _ hname ih =>
    intro object name' hmem
    rcases List.mem_cons.1 hmem with hmem | hmem
    · obtain ⟨-, rfl⟩ := Expr.member.inj hmem
      exact ⟨l, by simp, hname⟩
    · exact ih.mono (by simp) object name' hmem
  | index _ _ iho ihi =>
    exact ((iho.mono (by simp)).append
      (ihi.mono fun l hl => by simp [hl])).cons fun _ _ => Expr.noConfusion
  | call _ _ ihc iha =>
    exact ((ihc.mono (by simp)).append (iha.mono (by simp))).cons fun _ _ => Expr.noConfusion
  | unary _ _ ih => exact (ih.mono (by simp)).cons fun _ _ => Expr.noConfusion
  | binary hop _ _ ihl ihr =>
    refine operator?_members hop (ihl.mono ?_) (ihr.mono ?_) <;> simp
  | conditional _ _ _ iht ihc iha =>
    exact ((iht.mono (by simp)).append ((ihc.mono fun l hl => by simp [hl]).append
      (iha.mono fun l hl => by simp [hl]))).cons fun _ _ => Expr.noConfusion
  | noArguments | lastArgument | noElements => exact .nil
  | arguments _ _ ihe ihm => exact (ihe.mono (by simp)).append (ihm.mono (by simp))
  | nextArgument _ _ ihe ihm => exact (ihe.mono (by simp)).append (ihm.mono (by simp))
  | element _ _ ihe ihm => exact (ihe.mono (by simp)).append (ihm.mono (by simp))
  | hole _ ih => exact ih.mono (by simp)
  | lastElement _ ih => exact (ih.mono (by simp)).append .nil

theorem DerivesTail.members {more : List Expr} {ms : List Lexeme} (h : DerivesTail more ms) :
    MembersFrom ms (Expr.nodesAll more) := by
  induction h with
  | nil | separator _ => exact .nil
  | next _ he _ ih => exact (he.members.mono (by simp)).append (ih.mono (by simp))

theorem DerivesSource.members {e : Expr} {ls : List Lexeme} (h : DerivesSource e ls) :
    MembersFrom ls e.nodes := by
  obtain ⟨first, more, fs, ms, rfl, rfl, hfirst, hmore⟩ := h
  have hall := (hfirst.members.mono (by simp)).append (hmore.members.mono (by simp : ms ⊆ fs ++ ms))
  cases more with
  | nil => exact hfirst.members.mono (by simp)
  | cons second more => exact MembersFrom.cons hall fun _ _ => Expr.noConfusion

/-! ### Members are words -/

/-- The name begins like a word. -/
def IsWord (n : String) : Prop :=
  ∃ c cs, n.toList = c :: cs ∧ startsWord c = true

/-- A member that has been read begins like a word. -/
theorem member_isWord_of_parse {source : String} {e : Expr} (he : parse source = .ok e)
    {object : Expr} {name : String} (h : .member object name ∈ e.nodes) : IsWord name := by
  obtain ⟨pieces, us, rest, hcut, hderives, hpieces, -⟩ := exists_cut_of_parse he
  obtain ⟨l, hl, hname⟩ := hderives.members object name h
  have hmem : l ∈ pieces.filterMap Piece.lexeme ++ [.eof] := by
    rw [hpieces]
    exact List.mem_append_left _ hl
  unfold memberName? at hname
  split at hname <;> simp only [Option.some.injEq, reduceCtorEq] at hname <;> subst hname
  case h_1 n =>
    obtain ⟨p, hp, hlexeme⟩ := List.mem_filterMap.1 (by simpa using hmem)
    obtain ⟨after, hfits, hpiece⟩ := hcut.of_mem hp
    rw [hlexeme] at hpiece
    obtain ⟨hkind, htext, -⟩ := word_of_name hpiece
    rw [hkind, htext] at hfits
    unfold IsWord
    generalize n.toList = cs at hfits ⊢
    cases hfits with
    | word hstart => exact ⟨_, _, rfl, hstart⟩
  all_goals exact ⟨_, _, rfl, by decide⟩

end Formula

end LiveForm
