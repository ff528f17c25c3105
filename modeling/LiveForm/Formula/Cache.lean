import LiveForm.Formula.Eval

/-!
# Formulas that have been read before

A cache keeps the trees of the sources that have been read, one tree a source. Only what could be
read is kept.
-/

namespace LiveForm

/-- Trees by source. -/
abbrev Cache := Table String Expr

namespace Cache

/-- Reads a source, or takes its tree from the cache. -/
def parse (source : String) (cache : Cache) : Except SyntaxError Expr × Cache :=
  match Table.get? source cache with
  | some tree => (.ok tree, cache)
  | none =>
    match Formula.parse source with
    | .ok tree => (.ok tree, Table.put source tree cache)
    | .error e => (.error e, cache)

/-- Evaluates a source by way of the cache. -/
def evaluate (source : String) (ctx : Context) (cache : Cache) : Logged Value × Cache :=
  let (tree, cache') := parse source cache
  (Formula.answer source tree ctx, cache')

end Cache

end LiveForm
