import OntoSchema.Proofs.Entries
import OntoSchema.Proofs.Naming

/-!
# Schemas are named after the longest namespace

Of the registered namespaces that an IRI lies in, the longest one names it, under the greatest of
its short names: `namespaceOf?_eq_some_iff` says that the search finds this namespace, and no other
one counts. So a name stays when another namespace is registered that the IRI does not lie in, or
that is shorter than one it lies in, and different IRIs directly in one namespace have different
names (`schemaName_by_longest`).
-/

namespace OntoSchema.Ontology

/-- An IRI extends a namespace, which is not empty. -/
def LiesIn (iri space : String) : Prop := space ≠ "" ∧ ∃ rest, iri = space ++ rest

/-- A namespace is registered under a short name, and an IRI lies in it. -/
def Matches (prefixes : NameMap String) (iri short space : String) : Prop :=
  prefixes.get? short = some space ∧ LiesIn iri space

/-- The longest namespace that an IRI lies in, with the greatest of its short names. -/
structure Governs (prefixes : NameMap String) (iri short space : String) : Prop where
  matches_iri : Matches prefixes iri short space
  longest : ∀ other within, Matches prefixes iri other within → within.length ≤ space.length
  greatest : ∀ other, prefixes.get? other = some space → other ≤ short

/-- A text without the colons at its end. -/
def IsStem (stem text : String) : Prop :=
  ∃ count, text = stem ++ String.ofList (List.replicate count ':') ∧
    stem.toList.getLast? ≠ some ':'

/-- Registers one more namespace. -/
def register (ontology : Ontology) (short space : String) : Ontology :=
  { ontology with prefixes := some ((ontology.prefixes.getD ∅).insert short space) }

section Longest

variable {entries : List (String × String)} {entry best : String × String}

theorem exists_longest? (h : entry ∈ entries) : ∃ best, longest? entries = some best := by
  cases entries with
  | nil => cases h
  | cons first rest =>
    unfold longest?
    split
    · exact ⟨_, rfl⟩
    · split <;> exact ⟨_, rfl⟩

theorem mem_of_longest? (h : longest? entries = some best) : best ∈ entries := by
  induction entries with
  | nil => cases h
  | cons first rest ih =>
    unfold longest? at h
    split at h
    · obtain rfl := Option.some.inj h
      exact List.mem_cons_self
    · split at h
      · obtain rfl := Option.some.inj h
        exact List.mem_cons_self
      · obtain rfl := Option.some.inj h
        exact List.mem_cons_of_mem _ (ih ‹_›)

/-- Nothing is longer than what is found, and what is as long has no greater name. -/
theorem le_of_longest? (hordered : Entries.Ordered entries) (h : longest? entries = some best)
    (hmem : entry ∈ entries) :
    entry.2.length ≤ best.2.length ∧ (entry.2.length = best.2.length → entry.1 ≤ best.1) := by
  induction entries generalizing best with
  | nil => cases hmem
  | cons first rest ih =>
    obtain ⟨hfirst, hrest⟩ := List.pairwise_cons.1 hordered
    unfold longest? at h
    split at h
    · rename_i hnone
      obtain rfl := Option.some.inj h
      rcases List.mem_cons.1 hmem with rfl | hmem
      · exact ⟨Nat.le_refl _, fun _ => String.le_refl _⟩
      · obtain ⟨_, hfound⟩ := exists_longest? hmem
        rw [hnone] at hfound
        cases hfound
    · rename_i found hfound
      split at h
      · obtain rfl := Option.some.inj h
        rcases List.mem_cons.1 hmem with rfl | hmem
        · exact ⟨Nat.le_refl _, fun _ => String.le_refl _⟩
        · obtain ⟨hle, _⟩ := ih hrest hfound hmem
          exact ⟨by omega, by omega⟩
      · obtain rfl := Option.some.inj h
        rcases List.mem_cons.1 hmem with rfl | hmem
        · have hlt := hfirst _ (mem_of_longest? hfound)
          exact ⟨by omega, fun _ => String.not_lt.1 (String.lt_asymm hlt)⟩
        · exact ih hrest hfound hmem

end Longest

section Naming

variable {prefixes : NameMap String} {iri short space : String}

theorem contains_iff : contains space iri = true ↔ LiesIn iri space := by
  unfold contains LiesIn
  rw [Bool.and_eq_true, decide_eq_true_eq, List.isPrefixOf_iff_prefix]
  refine and_congr_right fun _ => ⟨?_, ?_⟩
  · rintro ⟨rest, hrest⟩
    refine ⟨String.ofList rest, String.toList_inj.1 ?_⟩
    rw [String.toList_append, String.toList_ofList, hrest]
  · rintro ⟨rest, rfl⟩
    rw [String.toList_append]
    exact List.prefix_append _ _

theorem mem_matching_iff :
    (short, space) ∈ prefixes.entries.filter (fun entry => contains entry.2 iri) ↔
      Matches prefixes iri short space := by
  rw [List.mem_filter, contains_iff]
  exact and_congr_left' (Entries.get?_eq_some_iff prefixes.ordered).symm

/-- Two namespaces of one length that an IRI lies in are the same. -/
theorem LiesIn.eq_of_length {other : String} (h : LiesIn iri space) (hother : LiesIn iri other)
    (hlength : space.length = other.length) : space = other := by
  obtain ⟨_, rest, rfl⟩ := h
  obtain ⟨_, rest', hrest⟩ := hother
  have hlist := congrArg String.toList hrest
  rw [String.toList_append, String.toList_append] at hlist
  exact String.toList_inj.1 (List.append_inj_left hlist
    (by rw [String.length_toList, String.length_toList, hlength]))

theorem Governs.unique {other within : String} (h : Governs prefixes iri short space)
    (hother : Governs prefixes iri other within) : short = other ∧ space = within := by
  have hlength : space.length = within.length :=
    Nat.le_antisymm (hother.longest _ _ h.matches_iri) (h.longest _ _ hother.matches_iri)
  obtain rfl := h.matches_iri.2.eq_of_length hother.matches_iri.2 hlength
  exact ⟨String.le_antisymm (hother.greatest _ h.matches_iri.1)
    (h.greatest _ hother.matches_iri.1), rfl⟩

theorem governs_of_namespaceOf? (h : namespaceOf? prefixes iri = some (short, space)) :
    Governs prefixes iri short space := by
  have hordered : Entries.Ordered (prefixes.entries.filter fun entry => contains entry.2 iri) :=
    List.Pairwise.filter _ prefixes.ordered
  have hmatches := mem_matching_iff.1 (mem_of_longest? h)
  refine ⟨hmatches, fun other within hother => ?_, fun other hother => ?_⟩
  · exact (le_of_longest? hordered h (mem_matching_iff.2 hother)).1
  · exact (le_of_longest? hordered h (mem_matching_iff.2 ⟨hother, hmatches.2⟩)).2 rfl

theorem exists_namespaceOf? (h : Matches prefixes iri short space) :
    ∃ entry, namespaceOf? prefixes iri = some entry :=
  exists_longest? (mem_matching_iff.2 h)

/-- The search finds the longest namespace, under the greatest of its short names. -/
theorem namespaceOf?_eq_some_iff :
    namespaceOf? prefixes iri = some (short, space) ↔ Governs prefixes iri short space := by
  refine ⟨governs_of_namespaceOf?, fun h => ?_⟩
  obtain ⟨⟨other, within⟩, hfound⟩ := exists_namespaceOf? h.matches_iri
  obtain ⟨rfl, rfl⟩ := h.unique (governs_of_namespaceOf? hfound)
  exact hfound

theorem namespaceOf?_eq_none_iff :
    namespaceOf? prefixes iri = none ↔ ∀ short space, ¬ Matches prefixes iri short space := by
  constructor
  · intro hnone short space h
    obtain ⟨_, hfound⟩ := exists_namespaceOf? h
    rw [hnone] at hfound
    cases hfound
  · intro h
    cases hfound : namespaceOf? prefixes iri with
    | none => rfl
    | some entry => exact absurd (governs_of_namespaceOf? hfound).matches_iri (h _ _)

theorem Matches.insert {other within : String} (h : Matches prefixes iri other within)
    (hnew : prefixes.get? short = none) :
    Matches (prefixes.insert short space) iri other within := by
  refine ⟨?_, h.2⟩
  rw [NameMap.get?_insert, if_neg, h.1]
  rintro rfl
  exact Option.some_ne_none within (h.1.symm.trans hnew)

/-- What matches afterwards did so before, or is the new namespace. -/
theorem Matches.of_insert {other within : String}
    (h : Matches (prefixes.insert short space) iri other within) :
    Matches prefixes iri other within ∨ LiesIn iri space ∧ within = space := by
  obtain ⟨hother, hlies⟩ := h
  rw [NameMap.get?_insert] at hother
  split at hother
  · obtain rfl := Option.some.inj hother
    exact .inr ⟨hlies, rfl⟩
  · exact .inl ⟨hother, hlies⟩

/-- A new namespace that does not contain an IRI, or is shorter than one that does, leaves the IRI
where it was. -/
theorem Governs.insert {other within : String} (h : Governs prefixes iri other within)
    (hnew : prefixes.get? short = none)
    (hidle : LiesIn iri space →
      ∃ longer more, Matches prefixes iri longer more ∧ space.length < more.length) :
    Governs (prefixes.insert short space) iri other within where
  matches_iri := h.matches_iri.insert hnew
  longest third more hthird := by
    rcases hthird.of_insert with hold | ⟨hlies, rfl⟩
    · exact h.longest _ _ hold
    · obtain ⟨_, _, hlonger, hlt⟩ := hidle hlies
      exact Nat.le_of_lt (Nat.lt_of_lt_of_le hlt (h.longest _ _ hlonger))
  greatest third hthird := by
    have hmatches : Matches (prefixes.insert short space) iri third within :=
      ⟨hthird, h.matches_iri.2⟩
    rcases hmatches.of_insert with hold | ⟨hlies, rfl⟩
    · exact h.greatest _ hold.1
    · obtain ⟨_, _, hlonger, hlt⟩ := hidle hlies
      exact absurd (h.longest _ _ hlonger) (Nat.not_le.2 hlt)

theorem namespaceOf?_insert (hnew : prefixes.get? short = none)
    (hidle : LiesIn iri space →
      ∃ longer more, Matches prefixes iri longer more ∧ space.length < more.length) :
    namespaceOf? (prefixes.insert short space) iri = namespaceOf? prefixes iri := by
  cases hfound : namespaceOf? prefixes iri with
  | some entry =>
    exact namespaceOf?_eq_some_iff.2 ((governs_of_namespaceOf? hfound).insert hnew hidle)
  | none =>
    rw [namespaceOf?_eq_none_iff] at hfound ⊢
    intro other within hmatches
    rcases hmatches.of_insert with hold | ⟨hlies, _⟩
    · exact hfound _ _ hold
    · obtain ⟨_, _, hlonger, _⟩ := hidle hlies
      exact hfound _ _ hlonger

theorem isStem_trimColons (text : String) : IsStem (trimColons text) text := by
  have hcolons : text.toList.reverse.takeWhile (· == ':') =
      List.replicate (text.toList.reverse.takeWhile (· == ':')).length ':' :=
    List.eq_replicate_iff.2 ⟨rfl, fun c hc => by
      simpa using List.all_eq_true.1 (List.all_takeWhile (p := (· == ':'))) c hc⟩
  refine ⟨(text.toList.reverse.takeWhile (· == ':')).length, ?_, ?_⟩
  · apply String.toList_inj.1
    unfold trimColons
    rw [String.toList_append, String.toList_ofList, String.toList_ofList, ← List.reverse_replicate,
      ← hcolons, ← List.reverse_append, List.takeWhile_append_dropWhile, List.reverse_reverse]
  · unfold trimColons
    rw [String.toList_ofList, List.getLast?_reverse]
    intro hlast
    have hhead := List.head?_dropWhile_not (· == ':') text.toList.reverse
    rw [hlast] at hhead
    cases hhead

theorem IsStem.trimColons_eq {stem text : String} (h : IsStem stem text) :
    trimColons text = stem := by
  obtain ⟨count, rfl, hlast⟩ := h
  have hstem : stem.toList.reverse.dropWhile (· == ':') = stem.toList.reverse := by
    rw [← List.head?_reverse] at hlast
    cases hreversed : stem.toList.reverse with
    | nil => rfl
    | cons c rest =>
      rw [hreversed, List.head?_cons, Ne, Option.some_inj] at hlast
      rw [List.dropWhile_cons_of_neg (by simpa using hlast)]
  unfold trimColons
  rw [String.toList_append, String.toList_ofList, List.reverse_append, List.reverse_replicate,
    List.dropWhile_append_of_pos (by simp), hstem, List.reverse_reverse, String.ofList_toList]

theorem nameWithin_append (space rest : String) :
    nameWithin space (space ++ rest) =
      if rest = "" then Iri.localName (space ++ rest) else rest := by
  have hrest : (space ++ rest).toList.drop space.length = rest.toList := by
    rw [String.toList_append, ← String.length_toList, List.drop_left]
  unfold nameWithin
  rw [hrest]
  split
  · rename_i hnil
    rw [if_pos (String.toList_eq_nil_iff.1 hnil)]
  · rename_i hcons
    rw [if_neg fun hempty => hcons (String.toList_eq_nil_iff.2 hempty), String.ofList_toList]

/-- A name behind a stem and a hyphen. An empty stem leaves the name as it is. -/
def behindStem (stem name : String) : String := if stem = "" then name else stem ++ "-" ++ name

theorem qualifiedName_of_governs {rest : String}
    (h : Governs prefixes (space ++ rest) short space) :
    qualifiedName prefixes (space ++ rest) =
      behindStem (trimColons short)
        (if rest = "" then Iri.localName (space ++ rest) else rest) := by
  unfold qualifiedName behindStem
  rw [namespaceOf?_eq_some_iff.2 h]
  dsimp only
  rw [nameWithin_append]

theorem qualifiedName_of_outside (h : ∀ short space, ¬ Matches prefixes iri short space) :
    qualifiedName prefixes iri = Iri.localName iri := by
  unfold qualifiedName
  rw [namespaceOf?_eq_none_iff.2 h]

theorem behindStem_inj (stem : String) {first second : String} :
    behindStem stem first = behindStem stem second ↔ first = second := by
  unfold behindStem
  split
  · exact Iff.rfl
  · exact String.append_right_inj _

/-- Names of IRIs that go on behind the same namespace differ in what comes behind it. -/
theorem qualifiedName_inj {other short' : String} (h : Governs prefixes iri short space)
    (hother : Governs prefixes other short' space) (hiri : iri ≠ space) (hspace : other ≠ space)
    (hname : qualifiedName prefixes iri = qualifiedName prefixes other) : iri = other := by
  obtain rfl : short = short' := String.le_antisymm (hother.greatest _ h.matches_iri.1)
    (h.greatest _ hother.matches_iri.1)
  obtain ⟨_, rest, rfl⟩ := h.matches_iri.2
  obtain ⟨_, rest', rfl⟩ := hother.matches_iri.2
  have hrest : rest ≠ "" := fun hempty => hiri (by rw [hempty, String.append_empty])
  have hrest' : rest' ≠ "" := fun hempty => hspace (by rw [hempty, String.append_empty])
  rw [qualifiedName_of_governs h, qualifiedName_of_governs hother, if_neg hrest, if_neg hrest',
    behindStem_inj] at hname
  rw [hname]

end Naming

variable {ontology : Ontology} {prefixes : NameMap String}

theorem prefixes?_register (hprefixes : ontology.prefixes? = some prefixes) (short space : String) :
    (ontology.register short space).prefixes? = some (prefixes.insert short space) := by
  have hregistered : ontology.prefixes = some prefixes := by
    unfold prefixes? at hprefixes
    obtain ⟨found, hfound, hsome⟩ := Option.bind_eq_some_iff.1 hprefixes
    split at hsome
    · cases hsome
    · rw [hfound, hsome]
  have hinserted : (prefixes.insert short space).get? short = some space := by
    rw [NameMap.get?_insert, if_pos rfl]
  have hfilled : (prefixes.insert short space).isEmpty = false :=
    List.isEmpty_eq_false_iff_exists_mem.2 ⟨_, Entries.mem_of_get? hinserted⟩
  unfold prefixes? register
  rw [hregistered]
  dsimp only [Option.getD_some, Option.bind_some]
  rw [hfilled]
  rfl

/-- A class outside all namespaces has its local name. Any other one is named after the longest
namespace it lies in and the greatest short name of that namespace. So its name stays when a
namespace is registered that does not contain it or is not the longest, and two classes directly in
one namespace never share a name. -/
theorem schemaName_by_longest (hprefixes : ontology.prefixes? = some prefixes) :
    (∀ iri, (∀ short space, ¬ Matches prefixes iri short space) →
      ontology.schemaName iri = .ok (Iri.localName iri)) ∧
    (∀ iri, (∃ short space, Matches prefixes iri short space) →
      ∃ short space stem rest, Governs prefixes iri short space ∧ IsStem stem short ∧
        iri = space ++ rest ∧ ontology.schemaName iri =
          .ok (behindStem stem (if rest = "" then Iri.localName iri else rest))) ∧
    (∀ iri short space, prefixes.get? short = none →
      (¬ LiesIn iri space ∨
        ∃ other within, Matches prefixes iri other within ∧ space.length < within.length) →
      (ontology.register short space).schemaName iri = ontology.schemaName iri) ∧
    (∀ iri other short short' space, Governs prefixes iri short space →
      Governs prefixes other short' space → iri ≠ space → other ≠ space → iri ≠ other →
      ontology.schemaName iri ≠ ontology.schemaName other) := by
  refine ⟨fun iri houtside => ?_, fun iri => ?_, fun iri short space hnew hidle => ?_,
    fun iri other short short' space h hother hiri hspace hne hname => ?_⟩
  · rw [schemaName_eq hprefixes, qualifiedName_of_outside houtside]
  · rintro ⟨short, space, hmatches⟩
    obtain ⟨⟨short, space⟩, hfound⟩ := exists_namespaceOf? hmatches
    have hgoverns := governs_of_namespaceOf? hfound
    obtain ⟨_, rest, rfl⟩ := hgoverns.matches_iri.2
    refine ⟨short, space, trimColons short, rest, hgoverns, isStem_trimColons short, rfl, ?_⟩
    rw [schemaName_eq hprefixes, qualifiedName_of_governs hgoverns]
  · rw [schemaName_eq (prefixes?_register hprefixes short space), schemaName_eq hprefixes]
    unfold qualifiedName
    rw [namespaceOf?_insert hnew fun hlies => hidle.resolve_left (not_not_intro hlies)]
  · rw [schemaName_eq hprefixes, schemaName_eq hprefixes] at hname
    exact hne (qualifiedName_inj h hother hiri hspace (Except.ok.inj hname))

/-- Two nested namespaces, and a second short name of the inner one. -/
def spaces : NameMap String := .ofList [("art::", "m/art/"), ("", "m/art/"), ("zoo", "m/")]

def museum : Ontology where
  iri := "m"
  prefixes := some spaces

/-- A vase is named after the inner namespace under its greater short name. Another name for the
outer one changes nothing. -/
theorem schemaName_by_longest_museum :
    museum.prefixes? = some spaces ∧ museum.schemaName "m/art/Vase" = .ok "art-Vase" ∧
      museum.schemaName "x/Vase" = .ok "Vase" ∧
      (museum.register "zoom" "m/").schemaName "m/art/Vase" = museum.schemaName "m/art/Vase" ∧
      museum.schemaName "m/art/Vase" ≠ museum.schemaName "m/art/Cup" := by
  have hprefixes : museum.prefixes? = some spaces := rfl
  obtain ⟨houtside, hinside, hstays, hdiffer⟩ := schemaName_by_longest hprefixes
  have hvase : Governs spaces "m/art/Vase" "art::" "m/art/" :=
    namespaceOf?_eq_some_iff.1 (by decide)
  have hcup : Governs spaces "m/art/Cup" "art::" "m/art/" :=
    namespaceOf?_eq_some_iff.1 (by decide)
  refine ⟨hprefixes, ?_, ?_, ?_, ?_⟩
  · obtain ⟨short, space, stem, rest, hgoverns, hstem, hrest, hname⟩ :=
      hinside "m/art/Vase" ⟨_, _, hvase.matches_iri⟩
    obtain ⟨rfl, rfl⟩ := hgoverns.unique hvase
    obtain rfl : "art" = stem := hstem.trimColons_eq
    have hsplit : "m/art/Vase" = "m/art/" ++ "Vase" := by decide
    obtain rfl : "Vase" = rest := (String.append_right_inj _).1 (hsplit.symm.trans hrest)
    exact hname
  · exact houtside "x/Vase" (namespaceOf?_eq_none_iff.1 (by decide))
  · exact hstays _ _ _ (by decide) (.inr ⟨_, _, hvase.matches_iri, by decide⟩)
  · exact hdiffer _ _ _ _ _ hvase hcup (by decide) (by decide) (by decide)

end OntoSchema.Ontology
