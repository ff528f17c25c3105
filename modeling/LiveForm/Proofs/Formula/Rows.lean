import Mathlib
import LiveForm.Proofs.Formula.Grammar

/-!
# Rows of lexemes for trees

A tree is written down as a row of lexemes, with a group around a part exactly where the part is
looser than its place allows. The row of a tree that a formula can have stands for that tree
(`Printable.derives_row`).
-/

namespace LiveForm

/-- The operator is one of the language. -/
def BinaryOp.InLanguage (op : BinaryOp) : Prop :=
  ∀ spelling, op ≠ .other spelling

/-- The operator is one of the language. -/
def LogicalOp.InLanguage (op : LogicalOp) : Prop :=
  ∀ spelling, op ≠ .other spelling

/-- The operator is one of the language. -/
def UnaryOp.InLanguage (op : UnaryOp) : Prop :=
  ∀ spelling, op ≠ .other spelling

/-- The level of an operator between two values, by the table of precedence. -/
def BinaryOp.level : BinaryOp → Nat
  | mul | div | mod => 1
  | add | sub => 2
  | lt | le | gt | ge => 3
  | _ => 4

/-- The level of an operator between two values, by the table of precedence. -/
def LogicalOp.level : LogicalOp → Nat
  | and => 5
  | or => 6
  | _ => 7

/-- The lexeme of an operator. One outside the language stands as its spelling. -/
def BinaryOp.lexeme : BinaryOp → Lexeme
  | strictEq => .symbol .strictEq | strictNe => .symbol .strictNe
  | eq => .symbol .eq | ne => .symbol .ne
  | lt => .symbol .lt | le => .symbol .le | gt => .symbol .gt | ge => .symbol .ge
  | add => .symbol .plus | sub => .symbol .minus
  | mul => .symbol .times | div => .symbol .divide | mod => .symbol .modulo
  | other s => .name s

/-- The lexeme of an operator. One outside the language stands as its spelling. -/
def LogicalOp.lexeme : LogicalOp → Lexeme
  | and => .symbol .and | or => .symbol .or | coalesce => .symbol .coalesce
  | other s => .name s

/-- The lexeme of an operator. One outside the language stands as its spelling. -/
def UnaryOp.lexeme : UnaryOp → Lexeme
  | not => .symbol .not | neg => .symbol .minus | pos => .symbol .plus | typeof => .typeof
  | other s => .name s

/-- The lexeme of a literal. What no literal can be stands as null. -/
def Value.lexeme : Value → Lexeme
  | bool b => .bool b
  | number n => .number n
  | text s => .text s
  | _ => .null

namespace Formula

/-- A row that stands for a formula at the first rank stands for it at the second one. -/
def Rank.Within : Rank → Rank → Prop
  | .atom, _ => True
  | .access, .atom => False
  | .access, _ => True
  | .level m, .level n => m ≤ n
  | .level m, .whole => m ≤ topLevel
  | .level _, _ => False
  | .whole, .whole => True
  | .whole, _ => False

instance (r s : Rank) : Decidable (r.Within s) := by
  cases r <;> cases s <;> unfold Rank.Within <;> infer_instance

theorem Rank.Within.derives {r s : Rank} (h : r.Within s) {e : Expr} {ls : List Lexeme}
    (he : Derives (.formula r e) ls) : Derives (.formula s e) ls := by
  have of_access {ls : List Lexeme} (he : Derives (.formula .access e) ls) (n : Nat) :
      Derives (.formula (.level n) e) ls :=
    .level_mono (.ofAccess he) n.zero_le
  match r, s with
  | .atom, .atom => exact he
  | .atom, .access => exact .ofAtom he
  | .atom, .level n => exact of_access (.ofAtom he) n
  | .atom, .whole => exact .ofLevels (of_access (.ofAtom he) topLevel)
  | .access, .access => exact he
  | .access, .level n => exact of_access he n
  | .access, .whole => exact .ofLevels (of_access he topLevel)
  | .level m, .level n => exact he.level_mono h
  | .level m, .whole => exact .ofLevels (he.level_mono h)
  | .whole, .whole => exact he

/-- The rank of the row that stands for a tree. -/
def rank : Expr → Rank
  | .literal _ | .name _ | .array _ => .atom
  | .member .. | .index .. | .call .. => .access
  | .unary .. => .level 0
  | .binary op .. => .level op.level
  | .logical op .. => .level op.level
  | _ => .whole

/-- A row at its place, with a group around it exactly if the row's rank is looser than the place
allows. -/
def fit (row place : Rank) (ls : List Lexeme) : List Lexeme :=
  if row.Within place then ls else .symbol .openParen :: (ls ++ [.symbol .closeParen])

mutual

/-- The row of a tree. The parts of a sequence stand between commas, and a node of no known kind
stands as the name of its kind. -/
def row : Expr → List Lexeme
  | .literal v => [v.lexeme]
  | .name n => [.name n]
  | .member object m => fit (rank object) .access (row object) ++ [.symbol .dot, wordLexeme m]
  | .index object i =>
    fit (rank object) .access (row object) ++
      .symbol .openBracket :: (row i ++ [.symbol .closeBracket])
  | .binary op left right =>
    fit (rank left) (.level op.level) (row left) ++
      op.lexeme :: fit (rank right) (.level (op.level - 1)) (row right)
  | .logical op left right =>
    fit (rank left) (.level op.level) (row left) ++
      op.lexeme :: fit (rank right) (.level (op.level - 1)) (row right)
  | .unary op operand => op.lexeme :: fit (rank operand) (.level 0) (row operand)
  | .conditional test consequent alternate =>
    fit (rank test) (.level topLevel) (row test) ++
      .symbol .question :: (row consequent ++ .symbol .colon :: row alternate)
  | .call callee args =>
    fit (rank callee) .access (row callee) ++ .symbol .openParen :: argumentsRow args
  | .array items => .symbol .openBracket :: elementsRow items
  | .sequence body => moreRow body
  | .foreign kind => [.name kind]

/-- The row of the arguments of a call, the closing parenthesis included. -/
def argumentsRow : List Expr → List Lexeme
  | [] => [.symbol .closeParen]
  | e :: more => row e ++ (moreRow more ++ [.symbol .closeParen])

/-- The row of some formulas, each with a comma in front. -/
def moreRow : List Expr → List Lexeme
  | [] => []
  | e :: more => .symbol .comma :: (row e ++ moreRow more)

/-- The row of the elements of an array, the closing bracket included: a comma behind each of them,
and a comma alone for a hole. -/
def elementsRow : List (Option Expr) → List Lexeme
  | [] => [.symbol .closeBracket]
  | none :: more => .symbol .comma :: elementsRow more
  | some e :: more => row e ++ .symbol .comma :: elementsRow more

end

/-- A literal of a formula: nothing, a flag, a text or a natural number. -/
inductive IsLiteral : Value → Prop
  | null : IsLiteral .null
  | bool (b : Bool) : IsLiteral (.bool b)
  | text (s : String) : IsLiteral (.text s)
  | number (n : Nat) : IsLiteral (.number (.int n))

/-- A word: a letter of ASCII, an underscore or a dollar sign, and then such characters or digits of
ASCII. -/
def IsName (w : String) : Prop :=
  ∃ c cs, w.toList = c :: cs ∧ startsWord c ∧ ∀ d ∈ cs, continuesWord d

/-- A tree that a formula can have, all but a sequence. -/
inductive Printable : Expr → Prop
  | literal {v : Value} : IsLiteral v → Printable (.literal v)
  | name {n : String} : IsName n → wordLexeme n = .name n → Printable (.name n)
  | member {object : Expr} {m : String} : Printable object → IsName m →
      Printable (.member object m)
  | index {object i : Expr} : Printable object → Printable i → Printable (.index object i)
  | binary {op : BinaryOp} {left right : Expr} : op.InLanguage → Printable left →
      Printable right → Printable (.binary op left right)
  | logical {op : LogicalOp} {left right : Expr} : op.InLanguage → Printable left →
      Printable right → Printable (.logical op left right)
  | unary {op : UnaryOp} {operand : Expr} : op.InLanguage → Printable operand →
      Printable (.unary op operand)
  | conditional {test consequent alternate : Expr} : Printable test → Printable consequent →
      Printable alternate → Printable (.conditional test consequent alternate)
  | call {callee : Expr} {args : List Expr} : Printable callee → (∀ e ∈ args, Printable e) →
      Printable (.call callee args)
  | array {items : List (Option Expr)} : (∀ e, some e ∈ items → Printable e) →
      Printable (.array items)

/-! ### Rows stand for their trees -/

theorem binary_operator {op : BinaryOp} (h : op.InLanguage) :
    ∃ s n, op.lexeme = .symbol s ∧ op.level = n + 1 ∧ n + 1 ≤ topLevel ∧
      operator? (n + 1) s = some (.binary op) := by
  cases op with
  | other s => exact absurd rfl (h s)
  | _ => exact ⟨_, _, rfl, rfl, by decide, rfl⟩

theorem logical_operator {op : LogicalOp} (h : op.InLanguage) :
    ∃ s n, op.lexeme = .symbol s ∧ op.level = n + 1 ∧ n + 1 ≤ topLevel ∧
      operator? (n + 1) s = some (.logical op) := by
  cases op with
  | other s => exact absurd rfl (h s)
  | _ => exact ⟨_, _, rfl, rfl, by decide, rfl⟩

theorem prefixOperator?_lexeme {op : UnaryOp} (h : op.InLanguage) :
    prefixOperator? op.lexeme = some op := by
  cases op with
  | other s => exact absurd rfl (h s)
  | _ => rfl

theorem atom?_literal {v : Value} (h : IsLiteral v) : atom? v.lexeme = some (.literal v) := by
  cases h <;> rfl

/-- Behind a dot every word is a name. -/
theorem memberName?_wordLexeme (m : String) : memberName? (wordLexeme m) = some m := by
  unfold wordLexeme
  split_ifs with h₁ h₂ h₃ h₄ h₅
  · exact congrArg some (eq_of_beq h₁).symm
  · exact congrArg some (eq_of_beq h₂).symm
  · exact congrArg some (eq_of_beq h₃).symm
  · exact congrArg some (eq_of_beq h₄).symm
  · exact congrArg some (eq_of_beq h₅).symm
  · rfl

/-- Every printable tree is within a whole formula. -/
theorem Printable.within_whole {e : Expr} (h : Printable e) : (rank e).Within .whole := by
  cases h with
  | binary hop _ _ =>
    obtain ⟨s, n, -, hn, htop, -⟩ := binary_operator hop
    rw [rank, hn]
    exact htop
  | logical hop _ _ =>
    obtain ⟨s, n, -, hn, htop, -⟩ := logical_operator hop
    rw [rank, hn]
    exact htop
  | unary _ _ => exact topLevel.zero_le
  | _ => exact trivial

/-- A row fits in its place once it stands for a printable tree at the tree's own rank. -/
theorem Printable.derives_fit {e : Expr} (h : Printable e) {ls : List Lexeme}
    (hls : Derives (.formula (rank e) e) ls) (place : Rank) :
    Derives (.formula place e) (fit (rank e) place ls) := by
  unfold fit
  split_ifs with hin
  · exact hin.derives hls
  · exact Rank.Within.derives (r := .atom) trivial (.group (h.within_whole.derives hls))

theorem derives_moreRow {es : List Expr} (h : ∀ e ∈ es, Derives (.formula .whole e) (row e)) :
    Derives (.moreArguments es) (moreRow es ++ [.symbol .closeParen]) := by
  induction es with
  | nil => exact .lastArgument
  | cons e more ih =>
    have hmore := ih fun e he => h e (List.mem_cons_of_mem _ he)
    simpa [moreRow] using Derives.nextArgument (h e List.mem_cons_self) hmore

theorem derives_argumentsRow {es : List Expr}
    (h : ∀ e ∈ es, Derives (.formula .whole e) (row e)) :
    Derives (.arguments es) (argumentsRow es) := by
  cases es with
  | nil => exact .noArguments
  | cons e more =>
    exact .arguments (h e List.mem_cons_self)
      (derives_moreRow fun e he => h e (List.mem_cons_of_mem _ he))

theorem derives_elementsRow {items : List (Option Expr)}
    (h : ∀ e, some e ∈ items → Derives (.formula .whole e) (row e)) :
    Derives (.elements items) (elementsRow items) := by
  induction items with
  | nil => exact .noElements
  | cons item more ih =>
    have hmore := ih fun e he => h e (List.mem_cons_of_mem _ he)
    cases item with
    | none => exact .hole hmore
    | some e => exact .element (h e List.mem_cons_self) hmore

/-- The row of a printable tree stands for it, at the tree's own rank. -/
theorem Printable.derives_row {e : Expr} (h : Printable e) :
    Derives (.formula (rank e) e) (row e) := by
  induction h with
  | literal hv => exact .atom (atom?_literal hv)
  | name _ _ => exact .atom rfl
  | @member _ m ho _ iho =>
    exact .member (ho.derives_fit iho .access) (memberName?_wordLexeme m)
  | index ho hi iho ihi =>
    exact .index (ho.derives_fit iho .access) (hi.within_whole.derives ihi)
  | binary hop hl hr ihl ihr =>
    obtain ⟨s, n, hs, hn, -, hmake⟩ := binary_operator hop
    simp only [rank, row, hs, hn]
    exact .binary hmake (hl.derives_fit ihl _) (hr.derives_fit ihr _)
  | logical hop hl hr ihl ihr =>
    obtain ⟨s, n, hs, hn, -, hmake⟩ := logical_operator hop
    simp only [rank, row, hs, hn]
    exact .binary hmake (hl.derives_fit ihl _) (hr.derives_fit ihr _)
  | unary hop ho iho => exact .unary (prefixOperator?_lexeme hop) (ho.derives_fit iho _)
  | conditional ht hc ha iht ihc iha =>
    exact .conditional (ht.derives_fit iht _) (hc.within_whole.derives ihc)
      (ha.within_whole.derives iha)
  | call hc ha ihc iha =>
    exact .call (hc.derives_fit ihc _)
      (derives_argumentsRow fun e he => (ha e he).within_whole.derives (iha e he))
  | array hi ihi =>
    exact .array (derives_elementsRow fun e he => (hi e he).within_whole.derives (ihi e he))

/-- The row of formulas at the root: each but the first with its separator in front. -/
def rootRow (first : Expr) (more : List (Symbol × Expr)) : List Lexeme :=
  row first ++ more.flatMap fun p => .symbol p.1 :: row p.2

theorem derives_rootRow {first : Expr} {more : List (Symbol × Expr)} (hfirst : Printable first)
    (hmore : ∀ p ∈ more, (p.1 = .comma ∨ p.1 = .semicolon) ∧ Printable p.2) :
    DerivesSource (ofBody (first :: more.map Prod.snd)) (rootRow first more) := by
  refine ⟨first, _, _, _, rfl, rfl, hfirst.within_whole.derives hfirst.derives_row, ?_⟩
  induction more with
  | nil => exact .nil
  | cons p more ih =>
    obtain ⟨hp, he⟩ := hmore p List.mem_cons_self
    exact .next hp (he.within_whole.derives he.derives_row)
      (ih fun q hq => hmore q (List.mem_cons_of_mem _ hq))

end Formula

end LiveForm
