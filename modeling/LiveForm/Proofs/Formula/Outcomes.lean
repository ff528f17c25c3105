import Mathlib
import LiveForm.Proofs.Formula.Grammar
import LiveForm.Proofs.Formula.Longest
import LiveForm.Proofs.Formula.Readers

/-!
# What comes of the parser

The parser goes from left to right and looks at one token ahead, of which only the class matters as
long as it is not taken. So what a reader does with a row depends on the tokens that it takes and on
the class of the next one. What it takes is what it was to read or, if it refuses the next token,
could still be continued to that (`Meets`). This is kept when readers are put together, and so it
holds of every part of the parser. The loops of the parser are handed a left side, and go on with any
row that stands for it.

A row that is read stands for the formula that it is read as (`parseTokens_sound`). **A row that is
refused could be continued up to the token that the error names, and with any token of its class in
that place it is refused as well** (`parseTokens_stuck`).

* `SameClass`, `HeadsAlike`: lexemes of one class, and rows that begin with them.
* `Fillable`: what is to be read can be read from symbols and names.
* `Meets`: what comes of a reader.
-/

namespace LiveForm.Formula

variable {α β γ : Type}

/-! ### Classes of lexemes -/

/-- Lexemes of one class. -/
inductive SameClass : Lexeme → Lexeme → Prop
  | refl (l : Lexeme) : SameClass l l
  | number (m n : Number) : SameClass (.number m) (.number n)
  | text (s t : String) : SameClass (.text s) (.text t)
  | bool (b c : Bool) : SameClass (.bool b) (.bool c)
  | name (s t : String) : SameClass (.name s) (.name t)

theorem Symbol.className_injective {s t : Symbol} (h : s.className = t.className) : s = t := by
  have hnodup : (Symbol.all.map Symbol.className).Nodup := by decide
  exact List.inj_on_of_nodup_map hnodup (Symbol.mem_all s) (Symbol.mem_all t) h

/-- No symbol is of a class of other lexemes. -/
theorem Symbol.className_ne (s : Symbol) {l : Lexeme} (hl : ∀ t, l ≠ .symbol t) :
    s.className ≠ l.className := by
  cases l with
  | symbol t => exact absurd rfl (hl t)
  | _ => cases s <;> simp [Symbol.className, Lexeme.className]

/-- The names tell the classes apart. -/
theorem sameClass_of_className {l l' : Lexeme} (h : l.className = l'.className) :
    SameClass l l' := by
  by_cases hl : ∃ s, l = .symbol s
  · obtain ⟨s, rfl⟩ := hl
    by_cases hl' : ∃ t, l' = .symbol t
    · obtain ⟨t, rfl⟩ := hl'
      obtain rfl := Symbol.className_injective h
      exact .refl _
    · exact absurd h (Symbol.className_ne s (not_exists.1 hl'))
  · by_cases hl' : ∃ t, l' = .symbol t
    · obtain ⟨t, rfl⟩ := hl'
      exact absurd h.symm (Symbol.className_ne t (not_exists.1 hl))
    · cases l <;> cases l' <;> first | constructor | simp [Lexeme.className] at h hl hl'

theorem SameClass.eq_eof_iff {l l' : Lexeme} (h : SameClass l l') : l = .eof ↔ l' = .eof := by
  cases h <;> simp

/-- Whether it accepts a lexeme is told by the class, and it never accepts the end of the source. -/
structure ByClass (f : Lexeme → Option γ) : Prop where
  eof : f .eof = none
  same : ∀ {l l' : Lexeme}, SameClass l l' → f l = none → f l' = none

theorem isSymbol_byClass (s : Symbol) : ByClass (isSymbol s) :=
  ⟨rfl, fun h hl => by cases h <;> exact hl⟩

theorem isSeparator_byClass : ByClass isSeparator :=
  ⟨rfl, fun h hl => by cases h <;> exact hl⟩

theorem isOperator_byClass (level : Nat) : ByClass (isOperator level) :=
  ⟨rfl, fun h hl => by cases h <;> exact hl⟩

theorem prefixOperator?_byClass : ByClass prefixOperator? :=
  ⟨rfl, fun h hl => by cases h <;> exact hl⟩

theorem atom?_byClass : ByClass atom? :=
  ⟨rfl, fun h hl => by cases h <;> first | exact hl | exact nomatch hl⟩

theorem memberName?_byClass : ByClass memberName? :=
  ⟨rfl, fun h hl => by
    cases h with
    | bool b c => cases b <;> exact nomatch hl
    | _ => first | exact hl | rfl | exact nomatch hl⟩

theorem eq_of_isSymbol {s : Symbol} {l : Lexeme} {u : Unit} (h : isSymbol s l = some u) :
    l = .symbol s := by
  unfold isSymbol at h
  split_ifs at h with hl
  exact hl

theorem eq_of_isOperator {level : Nat} {l : Lexeme} {make : Expr → Expr → Expr}
    (h : isOperator level l = some make) : ∃ s, l = .symbol s ∧ operator? level s = some make := by
  cases l with
  | symbol s => exact ⟨s, rfl, h⟩
  | _ => exact nomatch h

theorem eq_of_isSeparator {l : Lexeme} {u : Unit} (h : isSeparator l = some u) :
    ∃ s, l = .symbol s ∧ (s = .comma ∨ s = .semicolon) := by
  unfold isSeparator at h
  split_ifs at h with hl
  rcases hl with rfl | rfl
  · exact ⟨_, rfl, Or.inl rfl⟩
  · exact ⟨_, rfl, Or.inr rfl⟩

/-! ### What comes of readers -/

/-- Rows whose next tokens are of one class. -/
def HeadsAlike (rest rest' : List Token) : Prop :=
  SameClass (peek rest).lexeme (peek rest').lexeme

theorem HeadsAlike.append {rest rest' : List Token} (h : HeadsAlike rest rest') (us : List Token) :
    HeadsAlike (us ++ rest) (us ++ rest') := by
  cases us with
  | nil => exact h
  | cons u us => exact .refl _

/-- The lexemes with which a row may be filled up: symbols and names. -/
inductive Filler : Lexeme → Prop
  | symbol (s : Symbol) : Filler (.symbol s)
  | name : Filler (.name "x")

/-- Something can be read from symbols and names. -/
def Fillable (Q : α → List Lexeme → Prop) : Prop :=
  ∃ a ls, Q a ls ∧ ∀ l ∈ ls, Filler l

/-- What has been read needs nothing more. -/
theorem fillable_nil {Q : α → List Lexeme → Prop} {a : α} (h : Q a []) : Fillable Q :=
  ⟨a, [], h, by simp⟩

/-- What is still to be read behind some lexemes. -/
def Behind (ls : List Lexeme) (Q : α → List Lexeme → Prop) (a : α) (more : List Lexeme) : Prop :=
  Q a (ls ++ more)

/-- **What comes of a reader at a row**: it takes what it is to read, or it takes what could be
continued to that and refuses the next token. It does the same with every row that goes on alike. -/
inductive Meets (Q : α → List Lexeme → Prop) (p : Reader α) : List Token → Prop
  | reads (us rest : List Token) (a : α) : Q a (us.map Token.lexeme) →
      (∀ rest', HeadsAlike rest rest' → p (us ++ rest') = .ok (a, rest')) → Meets Q p (us ++ rest)
  | sticks (us rest : List Token) : Fillable (Behind (us.map Token.lexeme) Q) →
      (∀ rest', HeadsAlike rest rest' → ∃ cause, p (us ++ rest') = .error ⟨cause, peek rest'⟩) →
      Meets Q p (us ++ rest)

theorem taking_of_none {f : Lexeme → Option γ} {ts : List Token} (h : f (peek ts).lexeme = none)
    (yes : γ → Reader α) (no : Reader α) : taking f yes no ts = no ts := by
  cases ts with
  | nil => rfl
  | cons t rest =>
    have ht : f t.lexeme = none := h
    rw [taking, ht]

theorem taking_of_some {f : Lexeme → Option γ} {t : Token} {c : γ} (h : f t.lexeme = some c)
    (yes : γ → Reader α) (no : Reader α) (rest : List Token) :
    taking f yes no (t :: rest) = yes c rest := by
  rw [taking, h]

namespace Meets

variable {Q : α → List Lexeme → Prop} {p : Reader α} {ts : List Token}

theorem imp {Q' : α → List Lexeme → Prop} (h : Meets Q p ts) (hQ : ∀ a ls, Q a ls → Q' a ls) :
    Meets Q' p ts := by
  cases h with
  | reads us rest a ha hreads => exact .reads us rest a (hQ _ _ ha) hreads
  | sticks us rest hfill hsticks =>
    obtain ⟨a, ls, ha, hls⟩ := hfill
    exact .sticks us rest ⟨a, ls, hQ _ _ ha, hls⟩ hsticks

theorem pure {a : α} (h : Q a []) : Meets Q (pure a) ts :=
  .reads [] ts a h fun _ _ => rfl

theorem refuse {cause : ParseCause} (h : Fillable Q) : Meets Q (refuse cause) ts :=
  .sticks [] ts h fun _ _ => ⟨cause, rfl⟩

/-- A reader that does what another one does with every row that begins alike. -/
theorem congr {p' : Reader α} (h : Meets Q p' ts)
    (heq : ∀ ts', HeadsAlike ts ts' → p ts' = p' ts') : Meets Q p ts := by
  cases h with
  | reads us rest a ha hreads =>
    refine .reads us rest a ha fun rest' h => ?_
    rw [heq _ (h.append us)]
    exact hreads rest' h
  | sticks us rest hfill hsticks =>
    refine .sticks us rest hfill fun rest' h => ?_
    rw [heq _ (h.append us)]
    exact hsticks rest' h

/-- A reader that does behind the first token what another one does. -/
theorem cons {p' : Reader α} {t : Token} (h : Meets (Behind [t.lexeme] Q) p' ts)
    (heq : ∀ ts', p (t :: ts') = p' ts') : Meets Q p (t :: ts) := by
  cases h with
  | reads us rest a ha hreads =>
    refine .reads (t :: us) rest a ha fun rest' h => ?_
    rw [List.cons_append, heq]
    exact hreads rest' h
  | sticks us rest hfill hsticks =>
    refine .sticks (t :: us) rest hfill fun rest' h => ?_
    rw [List.cons_append, heq]
    exact hsticks rest' h

theorem taking {f : Lexeme → Option γ} (hf : ByClass f) {yes : γ → Reader α} {no : Reader α}
    (hyes : ∀ l c rest, rest.length < ts.length → f l = some c →
      Meets (Behind [l] Q) (yes c) rest)
    (hno : Meets Q no ts) : Meets Q (taking f yes no) ts := by
  cases hpeek : f (peek ts).lexeme with
  | none => exact hno.congr fun ts' h => taking_of_none (hf.same h hpeek) yes no
  | some c =>
    cases ts with
    | nil => exact nomatch hf.eof.symm.trans hpeek
    | cons t ts =>
      exact (hyes t.lexeme c ts (Nat.lt_succ_self _) hpeek).cons (taking_of_some hpeek yes no)

theorem symbol {s : Symbol} {yes : Unit → Reader α} {no : Reader α}
    (hyes : ∀ rest, rest.length < ts.length → Meets (Behind [.symbol s] Q) (yes ()) rest)
    (hno : Meets Q no ts) : Meets Q (Formula.taking (isSymbol s) yes no) ts := by
  refine taking (isSymbol_byClass s) (fun l _ rest hlt hl => ?_) hno
  obtain rfl := eq_of_isSymbol hl
  exact hyes rest hlt

theorem ifEnd {yes no : Reader α} (hyes : Meets Q yes ts) (hno : Meets Q no ts) :
    Meets Q (ifEnd yes no) ts := by
  by_cases hend : (peek ts).lexeme = .eof
  · exact hyes.congr fun ts' h => if_pos (h.eq_eof_iff.1 hend)
  · exact hno.congr fun ts' h => if_neg (hend ∘ h.eq_eof_iff.2)

/-- One reader after the other: whatever the first reads can be continued, and the second reads what
is still to be read. -/
theorem bind {q : α → Reader β} {R : β → List Lexeme → Prop} (hp : Meets Q p ts)
    (hfill : ∀ a ls, Q a ls → Fillable (Behind ls R))
    (hq : ∀ a ls rest, p ts = .ok (a, rest) → Q a ls → Meets (Behind ls R) (q a) rest) :
    Meets R (p >>= q) ts := by
  cases hp with
  | sticks us rest hstart hsticks =>
    obtain ⟨a, ls, ha, hls⟩ := hstart
    obtain ⟨b, ms, hb, hms⟩ := hfill a _ ha
    refine .sticks us rest ⟨b, ls ++ ms, ?_, List.forall_mem_append.2 ⟨hls, hms⟩⟩ fun rest' h => ?_
    · simpa only [Behind, List.append_assoc] using hb
    · obtain ⟨cause, herror⟩ := hsticks rest' h
      exact ⟨cause, by rw [bind_apply, herror]⟩
  | reads us rest a ha hreads =>
    have hrow (vs rest₂ rest' : List Token) (h : HeadsAlike rest₂ rest')
        (hrest : rest = vs ++ rest₂) : (p >>= q) (us ++ vs ++ rest') = q a (vs ++ rest') := by
      rw [List.append_assoc, bind_apply, hreads (vs ++ rest') (hrest ▸ h.append vs)]
    cases hq a _ rest (hreads rest (.refl _)) ha with
    | reads vs rest₂ b hb hreads₂ =>
      rw [← List.append_assoc]
      refine .reads (us ++ vs) rest₂ b (by rw [List.map_append]; exact hb) fun rest' h => ?_
      rw [hrow vs rest₂ rest' h rfl]
      exact hreads₂ rest' h
    | sticks vs rest₂ hstart hsticks =>
      rw [← List.append_assoc]
      refine .sticks (us ++ vs) rest₂ ?_ fun rest' h => ?_
      · obtain ⟨b, ms, hb, hms⟩ := hstart
        refine ⟨b, ms, ?_, hms⟩
        rw [Behind, List.map_append, List.append_assoc]
        exact hb
      · rw [hrow vs rest₂ rest' h rfl]
        exact hsticks rest' h

/-- The last reader, behind which something is only made of what has been read. -/
theorem last {R : β → List Lexeme → Prop} {make : α → β} (hp : Meets Q p ts)
    (h : ∀ a ls, Q a ls → R (make a) ls) : Meets R (p >>= fun a => Pure.pure (make a)) ts := by
  have hread (a : α) (ls : List Lexeme) (ha : Q a ls) : Behind ls R (make a) [] := by
    rw [Behind, List.append_nil]
    exact h a ls ha
  exact hp.bind (fun a ls ha => fillable_nil (hread a ls ha))
    fun a ls _ _ ha => .pure (hread a ls ha)

end Meets

/-! ### What comes of the parser -/

/-- A name is a formula of every rank. -/
theorem derives_name (r : Rank) : Derives (.formula r (.name "x")) [.name "x"] := by
  have hatom : Derives (.formula .atom (.name "x")) [.name "x"] := .atom rfl
  have hlevel (n : Nat) : Derives (.formula (.level n) (.name "x")) [.name "x"] :=
    (Derives.ofAccess (.ofAtom hatom)).level_mono (Nat.zero_le n)
  cases r with
  | atom => exact hatom
  | access => exact .ofAtom hatom
  | level n => exact hlevel n
  | whole => exact .ofLevels (hlevel topLevel)

theorem memberName_meets (ts : List Token) :
    Meets (fun name ls => ∃ l, ls = [l] ∧ memberName? l = some name) (reader memberName) ts := by
  rw [reader_memberName]
  refine .taking memberName?_byClass (fun l name rest _ hl => .pure ⟨l, rfl, hl⟩) (.refuse ?_)
  exact ⟨"x", [.name "x"], ⟨_, rfl, rfl⟩, by simpa using .name⟩

mutual

theorem conditional_meets (ts : List Token) :
    Meets (fun e ls => Derives (.formula .whole e) ls) (reader conditional) ts := by
  rw [reader_conditional]
  refine .bind (binary_meets topLevel ts) (fun test ls h => ?_) fun test ls r₀ hr₀ htest => ?_
  · exact fillable_nil (by simpa [Behind] using .ofLevels h)
  have hlt₀ := of_reader hr₀
  refine .symbol (fun r₁ hlt₁ => ?_) (.pure (by simpa [Behind] using .ofLevels htest))
  have hcolon (c : Expr) (cs : List Lexeme) (hc : Derives (.formula .whole c) cs) :
      Fillable (Behind cs (Behind [.symbol .question] (Behind ls
        fun e ls => Derives (.formula .whole e) ls))) := by
    refine ⟨.conditional test c (.name "x"), [.symbol .colon, .name "x"], ?_, ?_⟩
    · simpa [Behind] using .conditional htest hc (derives_name .whole)
    · simp [Filler.symbol, Filler.name]
  refine .bind (conditional_meets r₁) hcolon fun c cs r₂ hr₂ hc => ?_
  have hlt₂ := of_reader hr₂
  refine .symbol (fun r₃ hlt₃ => ?_) (.refuse (hcolon c cs hc))
  exact .last (conditional_meets r₃) fun a as ha => by
    simpa [Behind] using .conditional htest hc ha
termination_by (ts.length, 3 + topLevel)

theorem binary_meets (level : Nat) (ts : List Token) :
    Meets (fun e ls => Derives (.formula (.level level) e) ls) (reader (binary level)) ts := by
  match level with
  | 0 =>
    rw [reader_binary_zero]
    exact unary_meets ts
  | below + 1 =>
    rw [reader_binary_succ]
    refine .bind (binary_meets below ts) (fun left ls h => ?_) fun left ls r₀ hr₀ hleft => ?_
    · exact fillable_nil (by simpa [Behind] using .ofLevel h)
    have hlt₀ := of_reader hr₀
    exact (binaryTail_meets below left r₀).imp fun e ms h => h ls (.ofLevel hleft)
termination_by (ts.length, 2 + level)

theorem binaryTail_meets (below : Nat) (left : Expr) (ts : List Token) :
    Meets (fun e ms => ∀ ls, Derives (.formula (.level (below + 1)) left) ls →
      Derives (.formula (.level (below + 1)) e) (ls ++ ms)) (reader (binaryTail below left)) ts := by
  rw [reader_binaryTail]
  refine .taking (isOperator_byClass _) (fun l make r₀ hlt₀ hl => ?_) (.pure (by simp))
  obtain ⟨s, rfl, hs⟩ := eq_of_isOperator hl
  refine .bind (binary_meets below r₀) (fun right rs hr => ?_) fun right rs r₁ hr₁ hright => ?_
  · exact fillable_nil fun ls hl => by simpa using .binary hs hl hr
  have hlt₁ := of_reader hr₁
  refine (binaryTail_meets below (make left right) r₁).imp fun e ms h ls hl => ?_
  simpa using h _ (.binary hs hl hright)
termination_by (ts.length, 0)

theorem unary_meets (ts : List Token) :
    Meets (fun e ls => Derives (.formula (.level 0) e) ls) (reader unary) ts := by
  rw [reader_unary]
  refine .taking prefixOperator?_byClass (fun l op r₀ hlt₀ hop => ?_) ?_
  · exact .last (unary_meets r₀) fun e ls he => .unary hop he
  · refine .bind (primary_meets ts) (fun e ls he => ?_) fun node ls r₀ hr₀ hnode => ?_
    · exact fillable_nil (by simpa [Behind] using .ofAccess (.ofAtom he))
    have hlt₀ := of_reader hr₀
    exact (accesses_meets node r₀).imp fun e ms h => .ofAccess (h ls (.ofAtom hnode))
termination_by (ts.length, 1)

theorem accesses_meets (node : Expr) (ts : List Token) :
    Meets (fun e ms => ∀ ls, Derives (.formula .access node) ls →
      Derives (.formula .access e) (ls ++ ms)) (reader (accesses node)) ts := by
  rw [reader_accesses]
  refine .symbol (fun r₀ hlt₀ => ?_) (.symbol (fun r₀ hlt₀ => ?_)
    (.symbol (fun r₀ hlt₀ => ?_) (.pure (by simp))))
  · refine .bind (memberName_meets r₀) (fun name ns hn => ?_) fun name ns r₁ hr₁ hn => ?_
    · obtain ⟨l, rfl, hname⟩ := hn
      exact fillable_nil fun ls hl => by simpa using .member hl hname
    obtain ⟨l, rfl, hname⟩ := hn
    have hlt₁ := of_reader hr₁
    refine (accesses_meets (.member node name) r₁).imp fun e ms h ls hl => ?_
    simpa using h _ (.member hl hname)
  · have hclose (i : Expr) (is : List Lexeme) (hi : Derives (.formula .whole i) is) :
        Fillable (Behind is (Behind [.symbol .openBracket] fun e ms => ∀ ls,
          Derives (.formula .access node) ls → Derives (.formula .access e) (ls ++ ms))) := by
      refine ⟨.index node i, [.symbol .closeBracket], fun ls hl => ?_, by simp [Filler.symbol]⟩
      simpa using .index hl hi
    refine .bind (conditional_meets r₀) hclose fun i is r₁ hr₁ hi => ?_
    have hlt₁ := of_reader hr₁
    refine .symbol (fun r₂ hlt₂ => ?_) (.refuse (hclose i is hi))
    refine (accesses_meets (.index node i) r₂).imp fun e ms h ls hl => ?_
    simpa using h _ (.index hl hi)
  · refine .bind (arguments_meets r₀) (fun args as ha => ?_) fun args as r₁ hr₁ ha => ?_
    · exact fillable_nil fun ls hl => by simpa using .call hl ha
    have hlt₁ := of_reader hr₁
    refine (accesses_meets (.call node args) r₁).imp fun e ms h ls hl => ?_
    simpa using h _ (.call hl ha)
termination_by (ts.length, 0)

theorem primary_meets (ts : List Token) :
    Meets (fun e ls => Derives (.formula .atom e) ls) (reader primary) ts := by
  rw [reader_primary]
  have hfill : Fillable fun e ls => Derives (.formula .atom e) ls :=
    ⟨.name "x", [.name "x"], derives_name .atom, by simp [Filler.name]⟩
  refine .taking atom?_byClass (fun l e r₀ _ ha => .pure (.atom ha))
    (.symbol (fun r₀ hlt₀ => ?_) (.symbol (fun r₀ hlt₀ => ?_) (.ifEnd (.refuse hfill)
      (.refuse hfill))))
  · have hclose (e : Expr) (ls : List Lexeme) (he : Derives (.formula .whole e) ls) :
        Fillable (Behind ls (Behind [.symbol .openParen] fun e ls =>
          Derives (.formula .atom e) ls)) :=
      ⟨e, [.symbol .closeParen], by simpa [Behind] using .group he, by simp [Filler.symbol]⟩
    refine .bind (conditional_meets r₀) hclose fun e ls r₁ _ he => ?_
    exact .symbol (fun _ _ => .pure (by simpa [Behind] using .group he)) (.refuse (hclose e ls he))
  · exact .last (elements_meets r₀) fun items ls hi => .array hi
termination_by (ts.length, 0)

theorem arguments_meets (ts : List Token) :
    Meets (fun args ls => Derives (.arguments args) ls) (reader arguments) ts := by
  rw [reader_arguments]
  refine .symbol (fun _ _ => .pure .noArguments) ?_
  refine .bind (conditional_meets ts) (fun e ls he => ?_) fun e ls r₀ hr₀ he => ?_
  · exact ⟨[e], [.symbol .closeParen], .arguments he .lastArgument, by simp [Filler.symbol]⟩
  have hlt₀ := of_reader hr₀
  exact .last (moreArguments_meets r₀) fun more ms hm => .arguments he hm
termination_by (ts.length, 4 + topLevel)

theorem moreArguments_meets (ts : List Token) :
    Meets (fun args ls => Derives (.moreArguments args) ls) (reader moreArguments) ts := by
  rw [reader_moreArguments]
  have hfill : Fillable fun args ls => Derives (.moreArguments args) ls :=
    ⟨[], [.symbol .closeParen], .lastArgument, by simp [Filler.symbol]⟩
  refine .symbol (fun r₀ hlt₀ => ?_) (.symbol (fun _ _ => .pure .lastArgument) (.refuse hfill))
  refine .bind (conditional_meets r₀) (fun e ls he => ?_) fun e ls r₁ hr₁ he => ?_
  · refine ⟨[e], [.symbol .closeParen], ?_, by simp [Filler.symbol]⟩
    simpa [Behind] using .nextArgument he .lastArgument
  have hlt₁ := of_reader hr₁
  exact .last (moreArguments_meets r₁) fun more ms hm => by
    simpa [Behind] using .nextArgument he hm
termination_by (ts.length, 0)

theorem elements_meets (ts : List Token) :
    Meets (fun items ls => Derives (.elements items) ls) (reader elements) ts := by
  rw [reader_elements]
  refine .symbol (fun _ _ => .pure .noElements) (.symbol (fun r₀ hlt₀ => ?_) ?_)
  · exact .last (elements_meets r₀) fun more ms hm => .hole hm
  · have hclose (e : Expr) (ls : List Lexeme) (he : Derives (.formula .whole e) ls) :
        Fillable (Behind ls fun items ls => Derives (.elements items) ls) :=
      ⟨[some e], [.symbol .closeBracket], .lastElement he, by simp [Filler.symbol]⟩
    refine .bind (conditional_meets ts) hclose fun e ls r₀ hr₀ he => ?_
    have hlt₀ := of_reader hr₀
    refine .symbol (fun r₁ hlt₁ => ?_)
      (.symbol (fun _ _ => .pure (.lastElement he)) (.refuse (hclose e ls he)))
    exact .last (elements_meets r₁) fun more ms hm => by simpa [Behind] using .element he hm
termination_by (ts.length, 4 + topLevel)

end

theorem tailReader_meets (ts : List Token) : Meets DerivesTail tailReader ts := by
  rw [tailReader_eq]
  refine .taking isSeparator_byClass (fun l _ r₀ hlt₀ hl => ?_) (.pure .nil)
  obtain ⟨s, rfl, hs⟩ := eq_of_isSeparator hl
  refine .ifEnd (.pure (.separator hs)) ?_
  refine .bind (conditional_meets r₀) (fun e ls he => ?_) fun e ls r₁ hr₁ he => ?_
  · exact fillable_nil (by simpa [Behind] using DerivesTail.next hs he .nil)
  have hlt₁ := of_reader hr₁
  exact .last (tailReader_meets r₁) fun more ms hm => by
    simpa [Behind] using DerivesTail.next hs he hm
termination_by ts.length

theorem sourceReader_meets (ts : List Token) : Meets DerivesSource sourceReader ts := by
  have hread (e : Expr) (ls : List Lexeme) (he : Derives (.formula .whole e) ls)
      (more : List Expr) (ms : List Lexeme) (hm : DerivesTail more ms) :
      Behind ms (Behind ls DerivesSource) (ofBody (e :: more)) [] :=
    ⟨e, more, ls, ms, rfl, by rw [List.append_nil], he, hm⟩
  refine .ifEnd (.refuse ?_) (.bind (conditional_meets ts) (fun e ls he => ?_)
    fun e ls r₀ _ he => ?_)
  · exact ⟨_, [.name "x"], ⟨.name "x", [], _, [], rfl, rfl, derives_name .whole, .nil⟩,
      by simp [Filler.name]⟩
  · exact fillable_nil (hread e ls he [] [] .nil)
  refine .bind (tailReader_meets r₀) (fun more ms hm => fillable_nil (hread e ls he more ms hm))
    fun more ms r₁ _ hm => ?_
  exact .ifEnd (.pure (hread e ls he more ms hm)) (.refuse (fillable_nil (hread e ls he more ms hm)))

/-- A row is read up to where its source ends. -/
theorem peek_of_sourceReader {ts rest : List Token} {e : Expr}
    (h : sourceReader ts = .ok (e, rest)) : (peek rest).lexeme = .eof := by
  unfold sourceReader ifEnd at h
  split_ifs at h
  · exact nomatch h
  rw [bind_reader] at h
  split at h
  · exact nomatch h
  rw [bind_apply] at h
  split at h
  · exact nomatch h
  split_ifs at h with hend
  · obtain ⟨-, rfl⟩ := Prod.mk.inj (Except.ok.inj h)
    exact hend
  · exact nomatch h

/-- A row of tokens that is read stands, up to where the source ends, for the formula that it is
read as. -/
theorem parseTokens_sound {ts : List Token} {e : Expr} (h : parseTokens ts = .ok e) :
    ∃ us rest, ts = us ++ rest ∧ (peek rest).lexeme = .eof ∧
      DerivesSource e (us.map Token.lexeme) := by
  rw [parseTokens_eq] at h
  cases sourceReader_meets ts with
  | reads us rest tree htree hreads =>
    have hread := hreads rest (.refl _)
    rw [hread] at h
    obtain rfl : tree = e := Except.ok.inj h
    exact ⟨us, rest, rfl, peek_of_sourceReader hread, htree⟩
  | sticks us rest _ hsticks =>
    obtain ⟨cause, herror⟩ := hsticks rest (.refl _)
    rw [herror] at h
    exact nomatch h

/-- **A row that is refused could be continued up to the token of the error, and no row goes on from
there with a token of its class.** What is to come behind the tokens before it can be symbols and
names; and with a token of the same class in its place the parser refuses the row as well. -/
theorem parseTokens_stuck {ts : List Token} {e : ParseError} (h : parseTokens ts = .error e) :
    ∃ before rest, ts = before ++ rest ∧ e.token = peek rest ∧
      Fillable (Behind (before.map Token.lexeme) DerivesSource) ∧
      ∀ rest', HeadsAlike rest rest' → ∃ e', parseTokens (before ++ rest') = .error e' := by
  rw [parseTokens_eq] at h
  cases sourceReader_meets ts with
  | reads before rest tree _ hreads =>
    rw [hreads rest (.refl _)] at h
    exact nomatch h
  | sticks before rest hfill hsticks =>
    obtain ⟨cause, herror⟩ := hsticks rest (.refl _)
    rw [herror] at h
    refine ⟨before, rest, rfl, by rw [← Except.error.inj h], hfill, fun rest' hrest' => ?_⟩
    obtain ⟨cause', herror'⟩ := hsticks rest' hrest'
    exact ⟨_, by rw [parseTokens_eq, herror']; rfl⟩

end LiveForm.Formula
