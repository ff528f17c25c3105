import Mathlib
import LiveForm.Formula.Cache
import LiveForm.Proofs.Value.Table

/-!
# Caches cannot be told from reading anew

There is a shared cache and any number of private ones. Whatever has been asked of them, each holds
exactly the sources that could be read through it since it was last cleared, each with its tree; and
so a source is read and evaluated as it would be with an empty cache (`Caches.reads_as_anew`).

* `Cache.Faithful`: every entry is a source with its tree.
* `Caches.after`: the caches after any number of calls.
* `Caches.ReadSince`: a source has been read through a cache since it was last cleared.
-/

namespace LiveForm

namespace Cache

variable {cache : Cache} {source : String}

/-- Each source stands once, with the tree that reading it gives. -/
structure Faithful (cache : Cache) : Prop where
  keys : (Table.keys cache).Nodup
  trees : ∀ e ∈ cache, Formula.parse e.1 = .ok e.2

theorem faithful_empty : Faithful [] where
  keys := List.nodup_nil
  trees := fun _ he => absurd he List.not_mem_nil

/-- A source is in the cache, or it is read now, and its tree is kept if it has one. -/
theorem Faithful.parse_cases (h : cache.Faithful) (source : String) :
    (∃ tree, (source, tree) ∈ cache ∧ cache.parse source = (Formula.parse source, cache)) ∨
      (∃ tree, Formula.parse source = .ok tree ∧ Table.get? source cache = none ∧
        cache.parse source = (Formula.parse source, cache ++ [(source, tree)])) ∨
      ((∀ tree, Formula.parse source ≠ .ok tree) ∧
        cache.parse source = (Formula.parse source, cache)) := by
  unfold Cache.parse
  cases hfound : Table.get? source cache with
  | some tree =>
    have hmem := Table.mem_of_get? hfound
    exact .inl ⟨tree, hmem, by rw [h.trees _ hmem]⟩
  | none =>
    cases hparse : Formula.parse source with
    | ok tree =>
      exact .inr (.inl ⟨tree, rfl, rfl, congrArg (Except.ok tree, ·) (Table.put_new tree hfound)⟩)
    | error e => exact .inr (.inr ⟨nofun, rfl⟩)

/-- Reading through a faithful cache gives what reading anew gives. -/
theorem Faithful.parse_answer (h : cache.Faithful) (source : String) :
    (cache.parse source).1 = Formula.parse source := by
  rcases h.parse_cases source with ⟨_, _, heq⟩ | ⟨_, _, _, heq⟩ | ⟨_, heq⟩ <;> rw [heq]

/-- After a source has been read, its tree is in the cache if it has one. -/
theorem Faithful.mem_parse (h : cache.Faithful) {s : String} {tree : Expr} :
    (s, tree) ∈ (cache.parse source).2 ↔
      (s, tree) ∈ cache ∨ (s = source ∧ Formula.parse s = .ok tree) := by
  rcases h.parse_cases source with ⟨known, hknown, heq⟩ | ⟨new, hnew, -, heq⟩ | ⟨hnone, heq⟩
  · rw [heq]
    refine ⟨.inl, fun hs => hs.elim id ?_⟩
    rintro ⟨rfl, htree⟩
    obtain rfl := Except.ok.inj ((h.trees _ hknown).symm.trans htree)
    exact hknown
  · rw [heq, List.mem_append, List.mem_singleton, Prod.mk.injEq]
    refine or_congr_right (and_congr_right ?_)
    rintro rfl
    rw [hnew, Except.ok.injEq, eq_comm]
  · rw [heq]
    refine ⟨.inl, fun hs => hs.resolve_right ?_⟩
    rintro ⟨rfl, htree⟩
    exact hnone tree htree

theorem Faithful.parse (h : cache.Faithful) (source : String) : (cache.parse source).2.Faithful where
  keys := by
    rcases h.parse_cases source with ⟨_, _, heq⟩ | ⟨tree, -, hnone, heq⟩ | ⟨_, heq⟩
    · rw [heq]
      exact h.keys
    · rw [heq, ← Table.put_new tree hnone]
      exact Table.nodup_keys_put h.keys source tree
    · rw [heq]
      exact h.keys
  trees := fun e he => (h.mem_parse.1 he).elim (h.trees e) And.right

end Cache

/-! ### Calls -/

/-- What is asked of a cache. -/
inductive Cache.Question where
  | parse (source : String)
  | evaluate (source : String) (ctx : Context)
  | get (source : String)
  | contains (source : String)
  | clear

/-- What comes of a question. -/
inductive Cache.Answer where
  /-- The tree of a source, or why it cannot be read. -/
  | tree (result : Except SyntaxError Expr)
  /-- What evaluating a source gives, with what is logged. -/
  | value (result : Logged Value)
  | found (tree : Option Expr)
  | holds (b : Bool)
  | done

/-- The answer to a question, and the cache afterwards. -/
def Cache.ask (cache : Cache) : Cache.Question → Cache.Answer × Cache
  | .parse source => ((cache.parse source).map .tree id)
  | .evaluate source ctx => ((cache.evaluate source ctx).map .value id)
  | .get source => (.found (Table.get? source cache), cache)
  | .contains source => (.holds (Table.has source cache), cache)
  | .clear => (.done, [])

/-- The source that is read for an answer. -/
def Cache.Question.source? : Cache.Question → Option String
  | .parse source | .evaluate source _ => some source
  | _ => none

/-- A question to the shared cache, which has no number, or to a private one. -/
structure Call where
  cache : Option Nat
  question : Cache.Question

/-- The call reads the source through the cache. -/
def Call.Reads (call : Call) (c : Option Nat) (source : String) : Prop :=
  call.cache = c ∧ call.question.source? = some source

/-- The call clears the cache. -/
def Call.Clears (call : Call) (c : Option Nat) : Prop :=
  call.cache = c ∧ call.question = .clear

/-- The shared cache and the private ones. -/
abbrev Caches := Option Nat → Cache

namespace Caches

variable {calls : List Call} {call : Call} {c : Option Nat} {source : String}

/-- What a call makes of the caches. -/
def take (caches : Caches) (call : Call) : Caches :=
  Function.update caches call.cache ((caches call.cache).ask call.question).2

/-- The caches after calls. At the start all are empty. -/
def after (calls : List Call) : Caches :=
  calls.foldl take fun _ => []

/-- Among the calls is one that reads the source through the cache, and none after it clears the
cache. -/
def ReadSince (calls : List Call) (c : Option Nat) (source : String) : Prop :=
  ∃ before call later, calls = before ++ call :: later ∧ call.Reads c source ∧
    ∀ other ∈ later, ¬other.Clears c

theorem not_clears_of_reads (h : call.Reads c source) : ¬call.Clears c := by
  rintro ⟨-, hclear⟩
  have hread := h.2
  rw [hclear] at hread
  exact nomatch hread

theorem readSince_snoc : ReadSince (calls ++ [call]) c source ↔
    call.Reads c source ∨ (ReadSince calls c source ∧ ¬call.Clears c) := by
  constructor
  · rintro ⟨before, first, later, heq, hreads, hlater⟩
    rcases List.eq_nil_or_concat later with rfl | ⟨later, last, rfl⟩
    · obtain ⟨-, hlast⟩ := List.append_inj' heq rfl
      exact .inl (List.singleton_inj.1 hlast ▸ hreads)
    · have hsplit : calls ++ [call] = (before ++ first :: later) ++ [last] := by simpa using heq
      obtain ⟨rfl, hlast⟩ := List.append_inj' hsplit rfl
      obtain rfl := List.singleton_inj.1 hlast
      rw [List.concat_eq_append, List.forall_mem_append, List.forall_mem_singleton] at hlater
      exact .inr ⟨⟨before, first, later, rfl, hreads, hlater.1⟩, hlater.2⟩
  · rintro (hreads | ⟨⟨before, first, later, rfl, hreads, hlater⟩, hkept⟩)
    · exact ⟨calls, call, [], rfl, hreads, List.forall_mem_nil _⟩
    · refine ⟨before, first, later ++ [call], by rw [List.append_assoc]; rfl, hreads, ?_⟩
      exact List.forall_mem_append.2 ⟨hlater, List.forall_mem_singleton.2 hkept⟩

/-- The cache holds just what has been read through it and could be read. -/
structure Exact (cache : Cache) (calls : List Call) (c : Option Nat) : Prop where
  faithful : cache.Faithful
  entries : ∀ source tree, (source, tree) ∈ cache ↔
    Formula.parse source = .ok tree ∧ ReadSince calls c source

/-- A question that reads a source leaves the cache as reading the source does. -/
theorem ask_of_source? (cache : Cache) {q : Cache.Question} (h : q.source? = some source) :
    (cache.ask q).2 = (cache.parse source).2 := by
  cases q with
  | parse s | evaluate s ctx =>
    obtain rfl := Option.some.inj h
    rfl
  | get s | contains s | clear => exact nomatch h

/-- A question that reads no source clears the cache, or leaves it as it is. -/
theorem ask_of_source?_none (cache : Cache) {q : Cache.Question} (h : q.source? = none) :
    (q = .clear ∧ (cache.ask q).2 = []) ∨ (q ≠ .clear ∧ (cache.ask q).2 = cache) := by
  cases q with
  | parse s | evaluate s ctx => exact nomatch h
  | get s | contains s => exact .inr ⟨nofun, rfl⟩
  | clear => exact .inl ⟨rfl, rfl⟩

/-- A cache stays exact in a call to it. -/
theorem Exact.ask {cache : Cache} (h : Exact cache calls call.cache) :
    Exact (cache.ask call.question).2 (calls ++ [call]) call.cache := by
  cases hsource : call.question.source? with
  | some source =>
    have hreads (s : String) : call.Reads call.cache s ↔ s = source := by
      rw [Call.Reads, hsource, Option.some.injEq, and_iff_right rfl]
      exact eq_comm
    have hkept : ¬call.Clears call.cache := not_clears_of_reads ((hreads source).2 rfl)
    rw [ask_of_source? cache hsource]
    refine ⟨h.faithful.parse source, fun s tree => ?_⟩
    rw [h.faithful.mem_parse, h.entries, readSince_snoc, hreads]
    tauto
  | none =>
    have hreads (s : String) : ¬call.Reads call.cache s := fun hr =>
      nomatch hsource.symm.trans hr.2
    rcases ask_of_source?_none cache hsource with ⟨hclear, heq⟩ | ⟨hkept, heq⟩
    · rw [heq]
      refine ⟨Cache.faithful_empty, fun s tree => iff_of_false List.not_mem_nil ?_⟩
      rw [readSince_snoc]
      rintro ⟨-, hr | ⟨-, hkept⟩⟩
      · exact hreads s hr
      · exact hkept ⟨rfl, hclear⟩
    · rw [heq]
      refine ⟨h.faithful, fun s tree => ?_⟩
      have hclears : ¬call.Clears call.cache := fun hc => hkept hc.2
      rw [h.entries, readSince_snoc, or_iff_right (hreads s), and_iff_left hclears]

/-- A cache stays exact in a call to another one. -/
theorem Exact.other {cache : Cache} (h : Exact cache calls c) (hne : call.cache ≠ c) :
    Exact cache (calls ++ [call]) c where
  faithful := h.faithful
  entries := fun s tree => by
    have hreads : ¬call.Reads c s := fun hr => hne hr.1
    have hclears : ¬call.Clears c := fun hc => hne hc.1
    rw [h.entries, readSince_snoc, or_iff_right hreads, and_iff_left hclears]

theorem exact_after (calls : List Call) (c : Option Nat) : Exact (after calls c) calls c := by
  induction calls using List.reverseRecOn with
  | nil =>
    refine ⟨Cache.faithful_empty, fun s tree => iff_of_false List.not_mem_nil ?_⟩
    rintro ⟨-, before, call, later, heq, -⟩
    simp at heq
  | append_singleton calls call ih =>
    have hstep : after (calls ++ [call]) = (after calls).take call := List.foldl_concat ..
    rw [hstep, take]
    by_cases hc : call.cache = c
    · subst hc
      rw [Function.update_self]
      exact ih.ask
    · rw [Function.update_of_ne (Ne.symm hc)]
      exact ih.other hc

/-- **Caches cannot be told from reading anew.** Whatever sources have been read, evaluated, got or
looked for by way of a shared cache and private ones, and whenever these have been cleared: each cache
holds, once, just the sources that have been read through it since it was last cleared and could be
read, with the trees that reading them gives; and to read or evaluate a source by way of it gives the
tree, the value, the fault and the log that an empty cache gives. -/
theorem reads_as_anew (calls : List Call) (c : Option Nat) :
    (Table.keys (after calls c)).Nodup ∧
      (∀ source tree, (source, tree) ∈ after calls c ↔
        Formula.parse source = .ok tree ∧ ReadSince calls c source) ∧
      (∀ source, ((after calls c).ask (.parse source)).1 = (Cache.ask [] (.parse source)).1) ∧
      ∀ source ctx, ((after calls c).ask (.evaluate source ctx)).1 =
        (Cache.ask [] (.evaluate source ctx)).1 := by
  obtain ⟨hfaithful, hentries⟩ := exact_after calls c
  have hparse (source : String) : ((after calls c).parse source).1 = (Cache.parse source []).1 :=
    (hfaithful.parse_answer source).trans (Cache.faithful_empty.parse_answer source).symm
  refine ⟨hfaithful.keys, hentries, fun source => ?_, fun source ctx => ?_⟩
  · exact congrArg Cache.Answer.tree (hparse source)
  · exact congrArg (fun tree => Cache.Answer.value (Formula.answer source tree ctx)) (hparse source)

end Caches

end LiveForm
