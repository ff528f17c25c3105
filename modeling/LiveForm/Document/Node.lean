import LiveForm.Document.Part

/-!
# The nodes of documents

The parts of a document make a tree: maps between braces, lists between brackets, quoted texts and
plain words. A key may stand without a value, and an item of a list may be a key with a value, which
is a map of one entry.
-/

namespace LiveForm.Document

/-- A node. -/
inductive Node where
  /-- A plain word. What is left out is the empty word. -/
  | word (text : String)
  | quoted (text : String)
  | list (items : List Node)
  | map (entries : List (Node × Node))

/-- What is left after something has been read. -/
abbrev Rest (ts : List Placed) := { r : List Placed // r.length < ts.length }

/-- What is left after something or nothing has been read. -/
abbrev Tail (ts : List Placed) := { r : List Placed // r.length ≤ ts.length }

/-- What is left of the rest of something is left of it. -/
def Rest.within {ts : List Placed} (r : Rest ts) (s : Tail r.val) : Rest ts :=
  ⟨s.val, Nat.lt_of_le_of_lt s.property r.property⟩

mutual

/-- The node at the front. -/
def node (ts : List Placed) : Option (Node × Rest ts) :=
  match ts with
  | [] => none
  | t :: rest =>
    match t.part with
    | .word text => some (.word text, ⟨rest, Nat.lt_succ_self _⟩)
    | .quoted text => some (.quoted text, ⟨rest, Nat.lt_succ_self _⟩)
    | .openMap => (entries rest).map fun (es, r) => (.map es, ⟨r.val, Nat.lt_succ_of_lt r.property⟩)
    | .openList => (items rest).map fun (ns, r) => (.list ns, ⟨r.val, Nat.lt_succ_of_lt r.property⟩)
    | _ => none
termination_by (ts.length, 0)

/-- The value behind what may be a key at a place: nothing if no colon follows. A colon must not be
out of the key's reach. -/
def valueOf (key : Place) (ts : List Placed) : Option (Option Node × Tail ts) :=
  match ts with
  | [] => some (none, ⟨[], Nat.le_refl _⟩)
  | t :: rest =>
    match t.part with
    | .colon =>
      if !key.reaches t.place then none
      else
        match rest.head?.map Placed.part with
        | some .comma => some (some (.word ""), ⟨rest, Nat.le_succ _⟩)
        | some .closeMap => some (some (.word ""), ⟨rest, Nat.le_succ _⟩)
        | some .closeList => some (some (.word ""), ⟨rest, Nat.le_succ _⟩)
        | _ =>
          (node rest).map fun (n, r) =>
            (some n, ⟨r.val, Nat.le_of_lt (Nat.lt_succ_of_lt r.property)⟩)
    | _ => some (none, ⟨t :: rest, Nat.le_refl _⟩)
termination_by (ts.length, 0)

/-- A node that may be a key, with its value if it has one. -/
def pair (ts : List Placed) : Option ((Node × Option Node) × Rest ts) :=
  match ts with
  | [] => none
  | t :: rest =>
    match node (t :: rest) with
    | none => none
    | some (k, r) =>
      have := r.property
      match valueOf t.place r.val with
      | none => none
      | some (v, s) => some ((k, v), r.within s)
termination_by (ts.length, 1)

/-- The items of a list up to its bracket. -/
def items (ts : List Placed) : Option (List Node × Rest ts) :=
  match ts with
  | [] => none
  | t :: rest =>
    if t.part == .closeList then some ([], ⟨rest, Nat.lt_succ_self _⟩)
    else
      match pair (t :: rest) with
      | none => none
      | some ((k, v), r) =>
        let item := (v.map fun v => Node.map [(k, v)]).getD k
        match h : r.val with
        | [] => none
        | d :: more =>
          have bound : more.length + 1 < rest.length + 1 := by
            have := r.property
            rwa [h] at this
          if d.part == .closeList then
            some ([item], ⟨more, by simp only [List.length_cons]; omega⟩)
          else if d.part == .comma then
            match items more with
            | none => none
            | some (ns, s) =>
              some (item :: ns, ⟨s.val, by have := s.property; simp only [List.length_cons]; omega⟩)
          else none
termination_by (ts.length, 2)
decreasing_by
  · exact Prod.Lex.right _ (by decide)
  · exact Prod.Lex.left _ _ (by simp only [List.length_cons]; omega)

/-- The entries of a map up to its brace. A key without a value stands for nothing. -/
def entries (ts : List Placed) : Option (List (Node × Node) × Rest ts) :=
  match ts with
  | [] => none
  | t :: rest =>
    if t.part == .closeMap then some ([], ⟨rest, Nat.lt_succ_self _⟩)
    else
      match pair (t :: rest) with
      | none => none
      | some ((k, v), r) =>
        let entry := (k, v.getD (.word ""))
        match h : r.val with
        | [] => none
        | d :: more =>
          have bound : more.length + 1 < rest.length + 1 := by
            have := r.property
            rwa [h] at this
          if d.part == .closeMap then
            some ([entry], ⟨more, by simp only [List.length_cons]; omega⟩)
          else if d.part == .comma then
            match entries more with
            | none => none
            | some (es, s) =>
              some (entry :: es,
                ⟨s.val, by have := s.property; simp only [List.length_cons]; omega⟩)
          else none
termination_by (ts.length, 2)
decreasing_by
  · exact Prod.Lex.right _ (by decide)
  · exact Prod.Lex.left _ _ (by simp only [List.length_cons]; omega)

end

/-- The one node of a document; an empty document is the empty word. -/
def wholeNode (ts : List Placed) : Option Node :=
  if ts.isEmpty then some (.word "")
  else
    match node ts with
    | none => none
    | some (n, r) => if r.val.isEmpty then some n else none

end LiveForm.Document
