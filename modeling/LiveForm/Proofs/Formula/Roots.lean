import Mathlib
import LiveForm.Proofs.Formula.Names

/-!
# The roots of a row

The names in a row of lexemes that stand behind no dot are its roots. In a row that stands for a
formula they are the names of the tree, from left to right and with repetitions
(`DerivesSource.rootNames_append`), and none of them stands next to a number
(`DerivesSource.clear`).
-/

namespace LiveForm.Formula

/-- The names in a row of tokens that stand behind no dot, with their positions. -/
def roots (behindDot : Bool) : List Token → List (String × Nat)
  | [] => []
  | t :: ts =>
    let more := roots (t.lexeme == .symbol .dot) ts
    match t.lexeme with
    | .name n => if behindDot then more else (n, t.position) :: more
    | _ => more

/-- The names in a row of lexemes that stand behind no dot. -/
def rootNames (behindDot : Bool) : List Lexeme → List String
  | [] => []
  | l :: ls =>
    let more := rootNames (l == .symbol .dot) ls
    match l with
    | .name n => if behindDot then more else n :: more
    | _ => more

theorem roots_names (behindDot : Bool) (ts : List Token) :
    (roots behindDot ts).map Prod.fst = rootNames behindDot (ts.map Token.lexeme) := by
  induction ts generalizing behindDot with
  | nil => rfl
  | cons t ts ih =>
    rw [List.map_cons]
    cases hl : t.lexeme <;> cases behindDot <;> simp [roots, rootNames, hl, ih]

theorem roots_cons (behindDot : Bool) (t : Token) (ts : List Token) :
    roots behindDot (t :: ts) = roots behindDot [t] ++ roots (t.lexeme == .symbol .dot) ts := by
  cases hl : t.lexeme <;> cases behindDot <;> simp [roots, hl]

/-- Only a name that stands behind no dot is a root. -/
theorem roots_eq_nil {behindDot : Bool} {t : Token}
    (h : ∀ n, t.lexeme = .name n → behindDot = true) : roots behindDot [t] = [] := by
  rw [roots]
  split
  · next n hn => simp [h n hn, roots]
  · rfl

/-! ### The names of a tree -/

section

variable {behindDot : Bool} (ls : List Lexeme)

theorem rootNames_symbol {s : Symbol} (hs : s ≠ .dot) :
    rootNames behindDot (.symbol s :: ls) = rootNames false ls := by
  have hdot : (Lexeme.symbol s == .symbol .dot) = false := by
    rw [beq_eq_false_iff_ne]
    exact fun h => hs (Lexeme.symbol.inj h)
  simp only [rootNames, hdot]

theorem rootNames_member {l : Lexeme} {name : String} (h : memberName? l = some name) :
    rootNames behindDot (.symbol .dot :: l :: ls) = rootNames false ls := by
  unfold memberName? at h
  split at h <;> first | rfl | simp at h

theorem rootNames_prefix {l : Lexeme} {op : UnaryOp} (h : prefixOperator? l = some op) :
    rootNames behindDot (l :: ls) = rootNames false ls := by
  unfold prefixOperator? at h
  split at h <;> first | rfl | simp at h

theorem rootNames_atom {l : Lexeme} {e : Expr} (h : atom? l = some e) :
    rootNames false (l :: ls) = e.names ++ rootNames false ls := by
  unfold atom? at h
  split at h <;> first | (obtain rfl := Option.some.inj h; rfl) | simp at h

end

/-- In a row that stands for a phrase, the roots are the names of the phrase. -/
theorem Derives.rootNames_append {p : Phrase} {ls : List Lexeme} (h : Derives p ls)
    (more : List Lexeme) : rootNames false (ls ++ more) = p.names ++ rootNames false more := by
  have close {s : Symbol} (hs : s ≠ .dot) (more : List Lexeme) :
      rootNames false ([.symbol s] ++ more) = [] ++ rootNames false more :=
    rootNames_symbol more hs
  induction h generalizing more with
  | atom ha => exact rootNames_atom more ha
  | group _ ih =>
    rw [List.cons_append, rootNames_symbol _ (by decide), List.append_assoc, ih,
      close (by decide)]
    rfl
  | array _ ih | hole _ ih =>
    rw [List.cons_append, rootNames_symbol _ (by decide), ih]
    rfl
  | ofAtom _ ih | ofAccess _ ih | ofLevel _ ih | ofLevels _ ih => exact ih more
  | member _ hname ih =>
    rw [List.append_assoc, ih]
    exact congrArg _ (rootNames_member more hname)
  | index _ _ iho ihi =>
    rw [List.append_assoc, iho, List.cons_append, rootNames_symbol _ (by decide),
      List.append_assoc, ihi, close (by decide)]
    exact (List.append_assoc _ _ _).symm
  | call _ _ ihc iha =>
    rw [List.append_assoc, ihc, List.cons_append, rootNames_symbol _ (by decide), iha]
    exact (List.append_assoc _ _ _).symm
  | unary hop _ ih =>
    rw [List.cons_append, rootNames_prefix _ hop, ih]
    rfl
  | binary hop _ _ ihl ihr =>
    rw [List.append_assoc, ihl, List.cons_append, rootNames_symbol _ (operator?_ne_dot hop), ihr,
      ← List.append_assoc]
    exact congrArg (· ++ _) (operator?_names hop _ _).symm
  | conditional _ _ _ iht ihc iha =>
    rw [List.append_assoc, iht, List.cons_append, rootNames_symbol _ (by decide),
      List.append_assoc, ihc, List.cons_append, rootNames_symbol _ (by decide), iha]
    simp only [Phrase.names, Expr.names, List.append_assoc]
  | noArguments | lastArgument | noElements => exact close (by decide) more
  | arguments _ _ ihe ihm =>
    rw [List.append_assoc, ihe, ihm]
    exact (List.append_assoc _ _ _).symm
  | nextArgument _ _ ihe ihm =>
    rw [List.cons_append, rootNames_symbol _ (by decide), List.append_assoc, ihe, ihm]
    exact (List.append_assoc _ _ _).symm
  | element _ _ ihe ihm =>
    rw [List.append_assoc, ihe, List.cons_append, rootNames_symbol _ (by decide), ihm]
    exact (List.append_assoc _ _ _).symm
  | lastElement _ ih =>
    rw [List.append_assoc, ih, close (by decide)]
    simp only [Phrase.names, Expr.namesElements, List.append_nil, List.nil_append]

theorem separator_ne_dot {s : Symbol} (hs : s = .comma ∨ s = .semicolon) : s ≠ .dot := by
  rcases hs with rfl | rfl <;> decide

theorem DerivesTail.rootNames_append {es : List Expr} {ms : List Lexeme} (h : DerivesTail es ms)
    (more : List Lexeme) :
    rootNames false (ms ++ more) = Expr.namesAll es ++ rootNames false more := by
  induction h generalizing more with
  | nil => rfl
  | separator hs => exact rootNames_symbol more (separator_ne_dot hs)
  | next hs he _ ih =>
    rw [List.cons_append, rootNames_symbol _ (separator_ne_dot hs), List.append_assoc,
      he.rootNames_append, ih]
    exact (List.append_assoc _ _ _).symm

/-- In a row that stands for a formula or a sequence, the roots are the names of its tree. -/
theorem DerivesSource.rootNames_append {e : Expr} {ls : List Lexeme} (h : DerivesSource e ls)
    (more : List Lexeme) : rootNames false (ls ++ more) = e.names ++ rootNames false more := by
  obtain ⟨first, rest, fs, ms, rfl, rfl, hfirst, hrest⟩ := h
  rw [List.append_assoc, hfirst.rootNames_append, hrest.rootNames_append, names_ofBody]
  exact (List.append_assoc _ _ _).symm

/-! ### The neighbours of names -/

/-- Of two neighbours in a row, one is no name or the other is no number. -/
def Clear (l k : Lexeme) : Prop :=
  ∀ n m, ¬ (l = .name n ∧ k = .number m) ∧ ¬ (l = .number m ∧ k = .name n)

/-- In a row where names stand next to no number, a name does. -/
theorem not_number_of_isChain {xs ys : List Lexeme} {n : String}
    (h : (xs ++ .name n :: ys).IsChain Clear) :
    (∀ l, xs.getLast? = some l → ∀ m, l ≠ .number m) ∧
      ∀ l, ys.head? = some l → ∀ m, l ≠ .number m := by
  obtain ⟨-, hbehind, hbetween⟩ := List.isChain_append.1 h
  constructor
  · rintro l hl m rfl
    exact (hbetween _ hl (.name n) rfl n m).2 ⟨rfl, rfl⟩
  · rintro l hl m rfl
    exact ((List.isChain_cons.1 hbehind).1 _ hl n m).1 ⟨rfl, rfl⟩

theorem clear_symbol (s : Symbol) (l : Lexeme) : Clear (.symbol s) l ∧ Clear l (.symbol s) := by
  simp [Clear]

/-- A symbol may stand between any two rows. -/
theorem isChain_symbol {ls ms : List Lexeme} {s : Symbol} (hls : ls.IsChain Clear)
    (hms : ms.IsChain Clear) : (ls ++ .symbol s :: ms).IsChain Clear := by
  rw [List.isChain_append]
  refine ⟨hls, ?_, ?_⟩
  · rw [List.isChain_cons]
    exact ⟨fun k _ => (clear_symbol s k).1, hms⟩
  · intro l _ k hk
    obtain rfl := Option.some.inj hk
    exact (clear_symbol s l).2

theorem isChain_prefix {ls : List Lexeme} {l : Lexeme} {op : UnaryOp}
    (h : prefixOperator? l = some op) (hls : ls.IsChain Clear) : (l :: ls).IsChain Clear := by
  rw [List.isChain_cons]
  refine ⟨fun k _ => ?_, hls⟩
  unfold prefixOperator? at h
  split at h <;> simp_all [Clear]

/-- In a row that stands for a phrase, no name stands next to a number. -/
theorem Derives.clear {p : Phrase} {ls : List Lexeme} (h : Derives p ls) : ls.IsChain Clear := by
  induction h with
  | atom _ => exact List.isChain_singleton _
  | group _ ih => exact isChain_symbol .nil (isChain_symbol ih .nil)
  | array _ ih | hole _ ih => exact isChain_symbol .nil ih
  | ofAtom _ ih | ofAccess _ ih | ofLevel _ ih | ofLevels _ ih => exact ih
  | member _ _ ih => exact isChain_symbol ih (List.isChain_singleton _)
  | index _ _ iho ihi => exact isChain_symbol iho (isChain_symbol ihi .nil)
  | call _ _ ihc iha => exact isChain_symbol ihc iha
  | unary hop _ ih => exact isChain_prefix hop ih
  | binary _ _ _ ihl ihr => exact isChain_symbol ihl ihr
  | conditional _ _ _ iht ihc iha => exact isChain_symbol iht (isChain_symbol ihc iha)
  | noArguments | lastArgument | noElements => exact List.isChain_singleton _
  | arguments _ hm ihe ihm =>
    obtain ⟨s, rest, rfl⟩ := hm.moreArguments_symbol
    exact isChain_symbol ihe (List.isChain_cons.1 ihm).2
  | nextArgument _ hm ihe ihm =>
    obtain ⟨s, rest, rfl⟩ := hm.moreArguments_symbol
    exact isChain_symbol .nil (isChain_symbol ihe (List.isChain_cons.1 ihm).2)
  | element _ _ ihe ihm => exact isChain_symbol ihe ihm
  | lastElement _ ih => exact isChain_symbol ih .nil

theorem DerivesTail.clear {es : List Expr} {ms : List Lexeme} (h : DerivesTail es ms)
    {ls : List Lexeme} (hls : ls.IsChain Clear) : (ls ++ ms).IsChain Clear := by
  induction h generalizing ls with
  | nil =>
    rw [List.append_nil]
    exact hls
  | separator _ => exact isChain_symbol hls .nil
  | next _ he _ ih => exact isChain_symbol hls (ih he.clear)

/-- In a row that stands for a formula or a sequence, no name stands next to a number. -/
theorem DerivesSource.clear {e : Expr} {ls : List Lexeme} (h : DerivesSource e ls) :
    ls.IsChain Clear := by
  obtain ⟨first, rest, fs, ms, rfl, rfl, hfirst, hrest⟩ := h
  exact hrest.clear hfirst.clear

end LiveForm.Formula
