import Mathlib
import LiveForm.Proofs.Pattern.Takes
import LiveForm.Proofs.Text.Digit
import LiveForm.Proofs.Validation.Returning

/-!
# Email addresses

An email address is a name, an at sign and a domain, and the domain ends in a point and two letters
or more (`IsAddress`). The validator of the forms searches for it with a pattern whose classes
overlap: the class of the domain has the point in it and the letters behind the point. The pattern
takes exactly the addresses all the same (`takes_emailPattern`). But the end that it asks for is
also the place before a line break that ends the text, and so the validator passes the addresses and
the addresses with one line break behind them, and fails every other text (`email_passes_iff`).
-/

namespace LiveForm.Validation

/-- A character of the name in an address. -/
def IsNameChar (c : Char) : Prop :=
  c.isAlphanum = true ∨ c ∈ ['.', '_', '%', '+', '-']

/-- A character of the domain in an address. -/
def IsDomainChar (c : Char) : Prop :=
  c.isAlphanum = true ∨ c ∈ ['.', '-']

instance : DecidablePred IsNameChar := fun _ => inferInstanceAs (Decidable (_ ∨ _))

instance : DecidablePred IsDomainChar := fun _ => inferInstanceAs (Decidable (_ ∨ _))

/-- **Email addresses**: a name, an at sign, and a domain that ends in a point and two letters or
more, with at least one character before that point. -/
inductive IsAddress : List Char → Prop
  | intro {name host ending : List Char} : name ≠ [] → (∀ c ∈ name, IsNameChar c) → host ≠ [] →
      (∀ c ∈ host, IsDomainChar c) → 2 ≤ ending.length → (∀ c ∈ ending, c.isAlpha = true) →
      IsAddress (name ++ '@' :: (host ++ '.' :: ending))

/-! ### Classes -/

theorem ranges_holds {rs : List (Char × Char)} {c : Char} :
    (ranges rs).holds c = true ↔ ∃ r ∈ rs, r.1.toNat ≤ c.toNat ∧ c.toNat ≤ r.2.toNat := by
  simp [ranges, CharClass.holds, ClassItem.holds, Casing.kin]

/-- The ranges of two lists are the ranges of both. -/
theorem ranges_append {rs qs : List (Char × Char)} {c : Char} :
    (ranges (rs ++ qs)).holds c = true ↔
      (ranges rs).holds c = true ∨ (ranges qs).holds c = true := by
  simp only [ranges_holds, List.mem_append, or_and_right, exists_or]

theorem toNat_eq_of_between {c d : Char} (hlow : c.toNat ≤ d.toNat) (hhigh : d.toNat ≤ c.toNat) :
    d = c :=
  Char.toNat_inj.1 (le_antisymm hhigh hlow)

theorem ranges_only {cs : List Char} {d : Char} :
    (ranges (cs.map only)).holds d = true ↔ d ∈ cs := by
  rw [ranges_holds]
  constructor
  · rintro ⟨r, hr, hlow, hhigh⟩
    obtain ⟨c, hc, rfl⟩ := List.mem_map.1 hr
    rwa [toNat_eq_of_between hlow hhigh]
  · exact fun hd => ⟨only d, List.mem_map_of_mem hd, le_rfl, le_rfl⟩

theorem letters_holds {c : Char} : (ranges letters).holds c = true ↔ c.isAlpha = true := by
  simp [ranges_holds, letters, Char.isAlpha, Char.isUpper, Char.isLower, UInt32.le_iff_toNat_le,
    or_comm]

theorem digits_holds {c : Char} : (ranges [('0', '9')]).holds c = true ↔ c.isDigit = true := by
  simp [ranges_holds, Text.isDigit_iff]

theorem nameChars_holds {c : Char} :
    (ranges (letters ++ [('0', '9')] ++ "._%+-".toList.map only)).holds c = true ↔
      IsNameChar c := by
  rw [ranges_append, ranges_append, letters_holds, digits_holds, ranges_only, IsNameChar,
    Char.isAlphanum, Bool.or_eq_true]
  rfl

theorem domainChars_holds {c : Char} :
    (ranges (letters ++ [('0', '9')] ++ ".-".toList.map only)).holds c = true ↔
      IsDomainChar c := by
  rw [ranges_append, ranges_append, letters_holds, digits_holds, ranges_only, IsDomainChar,
    Char.isAlphanum, Bool.or_eq_true]
  rfl

/-! ### The pattern -/

section

open Pattern

variable {before taken after : List Char}

theorem takes_atLeast {rs : List (Char × Char)} {count : Nat} :
    (atLeast rs count).Takes before taken after ↔
      count ≤ taken.length ∧ ∀ c ∈ taken, (ranges rs).holds c = true :=
  takes_repeated_chars

theorem takes_char {c : Char} : (Pattern.char c).Takes before taken after ↔ taken = [c] := by
  have hchar {d : Char} : (ranges ([c].map only)).holds d = true ↔ d = c := by
    rw [ranges_only, List.mem_singleton]
  constructor
  · rintro ⟨d, rfl, hd⟩
    rw [hchar.1 hd]
  · rintro rfl
    exact ⟨c, rfl, hchar.2 rfl⟩

/-- **The pattern takes the addresses**, at the start of a text and at a place that counts as its
end. -/
theorem takes_emailPattern :
    emailPattern.Takes [] taken after ↔ IsAddress taken ∧ (after = [] ∨ after = ['\n']) := by
  constructor
  · rintro ⟨_, _, rfl, ⟨rfl, -⟩, name, _, rfl, hnames, _, _, rfl, hat, host, _, rfl, hhosts,
      _, _, rfl, hpoint, ending, _, rfl, hendings, rfl, hend⟩
    obtain ⟨hone, hname⟩ := takes_atLeast.1 hnames
    obtain ⟨hone', hhost⟩ := takes_atLeast.1 hhosts
    obtain ⟨htwo, hending⟩ := takes_atLeast.1 hendings
    obtain rfl := takes_char.1 hat
    obtain rfl := takes_char.1 hpoint
    have haddress : IsAddress (name ++ '@' :: (host ++ '.' :: ending)) :=
      .intro (List.length_pos_iff.1 hone) (fun c hc => nameChars_holds.1 (hname c hc))
        (List.length_pos_iff.1 hone') (fun c hc => domainChars_holds.1 (hhost c hc))
        htwo (fun c hc => letters_holds.1 (hending c hc))
    exact ⟨by simpa using haddress, by simpa using hend⟩
  · rintro ⟨haddress, hend⟩
    cases haddress with
    | @intro name host ending hname hnames hhost hhosts htwo hendings =>
      refine ⟨[], _, rfl, ⟨rfl, .inl rfl⟩, name, _, rfl, takes_atLeast.2 ⟨?_, ?_⟩, ['@'], _, rfl,
        takes_char.2 rfl, host, _, rfl, takes_atLeast.2 ⟨?_, ?_⟩, ['.'], ending, rfl,
        takes_char.2 rfl, ending, [], (List.append_nil ending).symm,
        takes_atLeast.2 ⟨htwo, ?_⟩, rfl, hend.imp_right .inl⟩
      · exact List.length_pos_iff.2 hname
      · exact fun c hc => nameChars_holds.2 (hnames c hc)
      · exact List.length_pos_iff.2 hhost
      · exact fun c hc => domainChars_holds.2 (hhosts c hc)
      · exact fun c hc => letters_holds.2 (hendings c hc)

end

/-! ### The validator -/

/-- The validator of email addresses lets a text pass, in every host and with any values. -/
def PassesEmail (r : Registry) (s : String) : Prop :=
  ∀ host values log,
    (runSpec r (.text "email") (.text s) values).result host log = (.ok (.bool true), log)

/-- The validator of email addresses fails a text, in every host and with any values. -/
def FailsEmail (r : Registry) (s : String) : Prop :=
  ∀ host values log,
    (runSpec r (.text "email") (.text s) values).result host log = (.ok (.issue "email" .null), log)

variable {r : Registry} {s : String}

theorem not_passes_and_fails (hpasses : PassesEmail r s) (hfails : FailsEmail r s) : False :=
  nomatch congrArg Prod.fst ((hpasses World.bare.host [] []).symm.trans
    (hfails World.bare.host [] []))

/-- A validator that comes with forms is the one that its name stands for in every registry. -/
theorem runSpec_standard (hr : r.Grown) {name : String} {v : Validator}
    (hv : Table.get? name Registry.standard.validators = some v) (value : Value)
    (values : Entries) : runSpec r (.text name) value values = call v value values := by
  have hget := hr.validator_kept hv
  have hknows : r.knows name = true := by
    rw [Registry.knows, Table.has, hget]
    rfl
  have hfind : r.find name .null = .ok v := by
    rw [Registry.find, Registry.resolve, hget]
  have hargs : Value.null ≠ .bool false := by simp
  rw [runSpec, runNamed_known hargs hknows, hfind]
  rfl

/-- A text that is not empty passes just if the pattern fits at its start, and fails otherwise. -/
theorem email_outcome (hr : r.Grown) (hs : s ≠ "") :
    if emailPattern.matchesStart s then PassesEmail r s else FailsEmail r s := by
  have hnonempty : s.isEmpty = false := by simpa using hs
  have hcall (values : Entries) : call email (.text s) values =
      .done (settle (if emailPattern.matchesStart s then pass else fails "email")) := by
    have hemail : call email (.text s) values =
        .done (settle
          (if s.isEmpty || emailPattern.matchesStart s then pass else fails "email")) := rfl
    rw [hemail, hnonempty, Bool.false_or]
  split
  · next hfits =>
    intro host values log
    rw [runSpec_standard hr rfl, hcall, if_pos hfits]
    rfl
  · next hfits =>
    intro host values log
    rw [runSpec_standard hr rfl, hcall, if_neg hfits]
    rfl

/-- The pattern fits at the start of addresses, alone or before a line break that ends the text. -/
theorem emailPattern_matchesStart : emailPattern.matchesStart s = true ↔
    IsAddress s.toList ∨ ∃ address, IsAddress address ∧ s.toList = address ++ ['\n'] := by
  have hregular : emailPattern.isRegular = true := by decide
  rw [Pattern.matchesStart_iff hregular]
  constructor
  · rintro ⟨taken, after, htext, htakes⟩
    obtain ⟨haddress, rfl | rfl⟩ := takes_emailPattern.1 htakes
    · rw [htext, List.append_nil]
      exact .inl haddress
    · exact .inr ⟨taken, haddress, htext⟩
  · rintro (haddress | ⟨address, haddress, htext⟩)
    · exact ⟨s.toList, [], (List.append_nil s.toList).symm,
        takes_emailPattern.2 ⟨haddress, .inl rfl⟩⟩
    · exact ⟨address, ['\n'], htext, takes_emailPattern.2 ⟨haddress, .inr rfl⟩⟩

/-- **The email validator passes addresses, with or without a line break behind them, and nothing
else.** In every registry that has grown from that of the forms, a text that is not empty passes if
all of it is an email address, or all of it but a line break at its end; and a text that does not
pass fails, as no email address. -/
theorem email_passes_iff (hr : r.Grown) (hs : s ≠ "") :
    (PassesEmail r s ↔
      IsAddress s.toList ∨ ∃ address, IsAddress address ∧ s.toList = address ++ ['\n']) ∧
    (PassesEmail r s ∨ FailsEmail r s) := by
  have houtcome := email_outcome hr hs
  rw [← emailPattern_matchesStart]
  split at houtcome
  · next hfits => exact ⟨iff_of_true houtcome hfits, .inl houtcome⟩
  · next hfits =>
    exact ⟨iff_of_false (not_passes_and_fails · houtcome) hfits, .inr houtcome⟩

/-- An address with points in its name and in its domain, and a line break behind it, in a registry
where another validator has been registered under the same name. -/
theorem email_passes_iff_line_break :
    (Registry.standard.register "email" required).Grown ∧ "x.y+z@a-b.c.de\n" ≠ "" ∧
      PassesEmail (Registry.standard.register "email" required) "x.y+z@a-b.c.de\n" := by
  have hr : (Registry.standard.register "email" required).Grown := .register _ _ .standard
  have hs : "x.y+z@a-b.c.de\n" ≠ "" := by decide
  have haddress : IsAddress ("x.y+z".toList ++ '@' :: ("a-b.c".toList ++ '.' :: "de".toList)) :=
    .intro (by decide) (List.forall_iff_forall_mem.1 (by decide)) (by decide)
      (List.forall_iff_forall_mem.1 (by decide)) (by decide)
      (List.forall_iff_forall_mem.1 (by decide))
  exact ⟨hr, hs, (email_passes_iff hr hs).1.2 (.inr ⟨_, haddress, rfl⟩)⟩

/-- No line break stands in an address. -/
theorem IsAddress.not_mem_break {cs : List Char} (h : IsAddress cs) : '\n' ∉ cs := by
  cases h with
  | intro _ hname _ hhost _ hending =>
    have hbreak : ¬IsNameChar '\n' ∧ ¬IsDomainChar '\n' := by decide
    intro hmem
    simp only [List.mem_append, List.mem_cons] at hmem
    rcases hmem with hmem | hmem | hmem | hmem | hmem
    · exact hbreak.1 (hname _ hmem)
    · exact absurd hmem (by decide)
    · exact hbreak.2 (hhost _ hmem)
    · exact absurd hmem (by decide)
    · exact absurd (hending _ hmem) (by decide)

/-- It is not so that just the addresses pass. -/
theorem not_email_passes_iff_isAddress :
    ¬ ∀ s : String, s ≠ "" → (PassesEmail .standard s ↔ IsAddress s.toList) := by
  intro h
  have haddress : IsAddress (['a'] ++ '@' :: (['b'] ++ '.' :: ['c', 'o'])) :=
    .intro (by decide) (List.forall_iff_forall_mem.1 (by decide)) (by decide)
      (List.forall_iff_forall_mem.1 (by decide)) (by decide)
      (List.forall_iff_forall_mem.1 (by decide))
  have hfits : emailPattern.matchesStart "a@b.co\n" = true :=
    emailPattern_matchesStart.2 (.inr ⟨_, haddress, rfl⟩)
  have hpasses : PassesEmail .standard "a@b.co\n" := by
    have houtcome := email_outcome .standard (s := "a@b.co\n") (by decide)
    rwa [if_pos hfits] at houtcome
  have hline : IsAddress "a@b.co\n".toList := (h "a@b.co\n" (by decide)).1 hpasses
  exact hline.not_mem_break (by decide)

end LiveForm.Validation
