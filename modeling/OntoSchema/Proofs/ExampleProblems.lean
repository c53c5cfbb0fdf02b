import OntoSchema.KeywordCheck
import OntoSchema.Proofs.Shapes

/-!
# Problems of examples

Whatever check is used, a problem is one text that it gives for the example of a property, at the
path of the property. A value schema that refers to a component is passed over, and so is one that
has the key of a reference in its values or for a property (`mentions_toJson_eq_false_iff`). If a
schema is refused, the validation says which one instead (`exampleProblems_point`). The path reads
as a JSON pointer to the property just when neither of its names needs an escape
(`pointerTokens?_propertyPath`).
-/

namespace OntoSchema

section Pointers

/-- The token that a piece of a JSON pointer stands for. A tilde begins an escape. -/
def pointerToken? : List Char → Option (List Char)
  | '~' :: '0' :: rest => (pointerToken? rest).map ('~' :: ·)
  | '~' :: '1' :: rest => (pointerToken? rest).map ('/' :: ·)
  | '~' :: _ => none
  | c :: rest => (pointerToken? rest).map (c :: ·)
  | [] => some []

/-- The tokens of a JSON pointer. A slash stands before each of them. -/
def pointerTokens? : (path : List Char) → Option (List (List Char))
  | [] => some []
  | '/' :: rest => (rest.splitOn '/').mapM pointerToken?
  | _ => none

variable {piece token : List Char} {schema property : String}

theorem length_of_pointerToken? (h : pointerToken? piece = some token) :
    token.length ≤ piece.length := by
  fun_induction pointerToken? piece generalizing token with
  | case1 rest ih =>
    obtain ⟨_, hrest, rfl⟩ := Option.map_eq_some_iff.1 h
    have := ih hrest
    simp only [List.length_cons]
    omega
  | case2 rest ih =>
    obtain ⟨_, hrest, rfl⟩ := Option.map_eq_some_iff.1 h
    have := ih hrest
    simp only [List.length_cons]
    omega
  | case3 rest => cases h
  | case4 c rest _ _ _ ih =>
    obtain ⟨_, hrest, rfl⟩ := Option.map_eq_some_iff.1 h
    exact Nat.succ_le_succ (ih hrest)
  | case5 =>
    obtain rfl := Option.some.inj h
    exact Nat.le_refl _

/-- An escape is longer than what it stands for. -/
theorem map_pointerToken?_ne (c d e : Char) (rest : List Char) :
    (pointerToken? rest).map (c :: ·) ≠ some (d :: e :: rest) := by
  intro h
  obtain ⟨token, hrest, heq⟩ := Option.map_eq_some_iff.1 h
  have hlength := length_of_pointerToken? hrest
  rw [(List.cons.inj heq).2, List.length_cons] at hlength
  omega

/-- Only a piece without escapes stands for itself. -/
theorem pointerToken?_eq_self_iff : pointerToken? piece = some piece ↔ '~' ∉ piece := by
  fun_induction pointerToken? piece with
  | case1 rest _ =>
    exact iff_of_false (map_pointerToken?_ne _ _ _ rest) fun h => h List.mem_cons_self
  | case2 rest _ =>
    exact iff_of_false (map_pointerToken?_ne _ _ _ rest) fun h => h List.mem_cons_self
  | case3 rest => exact iff_of_false nofun fun h => h List.mem_cons_self
  | case4 c rest _ _ htilde ih =>
    have hc : '~' ≠ c := fun h => htilde h.symm
    rw [List.mem_cons, not_or, and_iff_right hc, ← ih]
    exact (Option.map_injective (List.cons_injective (a := c))).eq_iff' rfl
  | case5 => exact iff_of_true rfl List.not_mem_nil

theorem length_splitOn_pos (text : List Char) : 0 < (text.splitOn '/').length :=
  List.length_pos_iff.2 (List.splitOn_ne_nil _ _)

/-- A text without slashes is one piece. -/
theorem length_splitOn_eq_one_iff {text : List Char} :
    (text.splitOn '/').length = 1 ↔ '/' ∉ text := by
  constructor
  · intro h hm
    obtain ⟨first, rest, rfl⟩ := List.append_of_mem hm
    rw [List.splitOn_append_cons_self, List.length_append] at h
    have hfirst := length_splitOn_pos first
    have hrest := length_splitOn_pos rest
    omega
  · intro h
    rw [List.splitOn_eq_singleton h]
    rfl

theorem length_of_mapM {α β : Type} {f : α → Option β} {items : List α} {results : List β}
    (h : items.mapM f = some results) : results.length = items.length := by
  induction items generalizing results with
  | nil =>
    obtain rfl := Option.some.inj h
    rfl
  | cons item rest ih =>
    rw [List.mapM_cons] at h
    obtain ⟨first, _, h⟩ := Option.bind_eq_some_iff.1 h
    obtain ⟨others, hothers, h⟩ := Option.bind_eq_some_iff.1 h
    obtain rfl := Option.some.inj h
    rw [List.length_cons, List.length_cons, ih hothers]

/-- The pieces of the path of a property. -/
theorem pointerTokens?_eq (schema property : String) :
    pointerTokens? (propertyPath schema property).toList =
      (schema.toList.splitOn '/' ++ ("properties".toList :: property.toList.splitOn '/')).mapM
        pointerToken? := by
  have hpath : (propertyPath schema property).toList = '/' :: (schema.toList ++ '/' ::
      ("properties".toList ++ '/' :: property.toList)) := by
    have hslash : "/".toList = ['/'] ∧
        "/properties/".toList = '/' :: ("properties".toList ++ ['/']) := by decide
    unfold propertyPath
    simp only [String.toList_append, hslash.1, hslash.2, List.append_assoc, List.cons_append,
      List.nil_append]
  have hname : "properties".toList.splitOn '/' = ["properties".toList] :=
    List.splitOn_eq_singleton (by decide)
  rw [hpath, pointerTokens?, List.splitOn_append_cons_self, List.splitOn_append_cons_self, hname,
    List.singleton_append]

/-- The path of a property leads to it just when its names have nothing to escape. -/
theorem pointerTokens?_propertyPath :
    pointerTokens? (propertyPath schema property).toList =
        some [schema.toList, "properties".toList, property.toList] ↔
      ('/' ∉ schema.toList ∧ '~' ∉ schema.toList) ∧
        '/' ∉ property.toList ∧ '~' ∉ property.toList := by
  have hname : pointerToken? "properties".toList = some "properties".toList :=
    pointerToken?_eq_self_iff.2 (by decide)
  -- If both names are uncut, each of the two must stand for itself.
  have hwhole : '/' ∉ schema.toList → '/' ∉ property.toList →
      (pointerTokens? (propertyPath schema property).toList =
          some [schema.toList, "properties".toList, property.toList] ↔
        '~' ∉ schema.toList ∧ '~' ∉ property.toList) := by
    intro hschema hproperty
    rw [pointerTokens?_eq, List.splitOn_eq_singleton hschema, List.splitOn_eq_singleton hproperty,
      List.singleton_append, ← pointerToken?_eq_self_iff, ← pointerToken?_eq_self_iff,
      List.mapM_cons, List.mapM_cons, List.mapM_cons, hname]
    cases pointerToken? schema.toList <;> cases pointerToken? property.toList <;> simp
  constructor
  · intro h
    have hlength := length_of_mapM ((pointerTokens?_eq schema property).symm.trans h)
    rw [List.length_append, List.length_cons] at hlength
    simp only [List.length_cons, List.length_nil] at hlength
    -- Three tokens come from three pieces, so neither name was cut.
    have hschema := length_splitOn_pos schema.toList
    have hproperty := length_splitOn_pos property.toList
    have hfirst := length_splitOn_eq_one_iff.1
      (show (schema.toList.splitOn '/').length = 1 by omega)
    have hlast := length_splitOn_eq_one_iff.1
      (show (property.toList.splitOn '/').length = 1 by omega)
    obtain ⟨htilde, htilde'⟩ := (hwhole hfirst hlast).1 h
    exact ⟨⟨hfirst, htilde⟩, hlast, htilde'⟩
  · rintro ⟨⟨hschema, htilde⟩, hproperty, htilde'⟩
    exact (hwhole hschema hproperty).2 ⟨htilde, htilde'⟩

end Pointers

section Keys

variable {key name : String}

namespace Json

theorem fieldsMention_append (first second : List (String × Json)) :
    fieldsMention key (first ++ second) =
      (fieldsMention key first || fieldsMention key second) := by
  induction first with
  | nil => rfl
  | cons field rest ih =>
    rw [List.cons_append, fieldsMention, fieldsMention, ih, Bool.or_assoc (_ || _)]

theorem itemsMention_iff {items : List Json} :
    itemsMention key items = true ↔ ∃ item ∈ items, item.mentions key = true := by
  induction items with
  | nil => simp [itemsMention]
  | cons item rest ih => simp [itemsMention, ih]

theorem itemsMention_strings (texts : List String) :
    itemsMention key (texts.map .string) = false := by
  rw [Bool.eq_false_iff, ne_eq, itemsMention_iff]
  rintro ⟨item, hm, hkey⟩
  obtain ⟨text, _, rfl⟩ := List.mem_map.1 hm
  cases hkey

end Json

namespace SchemaNode

open Json

/-- The values that a node is written with. -/
def writtenValues (node : SchemaNode) : List Json :=
  node.enumValues.getD [] ++ (node.exampleValue.toList ++ node.defaultValue.toList)

/-- A key that names a property of a node or occurs in one of its values. -/
def UsesKey (key : String) (node : SchemaNode) : Prop :=
  key ∈ node.propertyNames ∨ ∃ value ∈ node.writtenValues, value.mentions key = true

/-- A field of another name mentions what its value mentions. -/
theorem fieldsMention_field? {α : Type} (h : name ≠ key) (write : α → Json) (value : Option α) :
    fieldsMention key (field? name write value) =
      value.any fun found => (write found).mentions key := by
  cases value with
  | none => rfl
  | some found => simp [field?, fieldsMention, h]

theorem fieldsMention_listField? (h : name ≠ key) (items : List Json) :
    fieldsMention key (listField? name .array items) = itemsMention key items := by
  cases items with
  | nil => rfl
  | cons item rest => simp [listField?, fieldsMention, h, mentions]

theorem fieldsMention_propertyFields (h : "properties" ≠ key) (fields : List (String × Json)) :
    fieldsMention key (propertyFields fields) = fieldsMention key fields := by
  cases fields with
  | nil => rfl
  | cons field rest => simp [propertyFields, fieldsMention, h, mentions]

theorem fieldsMention_writtenProperties {properties : List (String × SchemaNode)} :
    fieldsMention key (writtenProperties properties) = true ↔ key ∈ Entries.names properties ∨
      ∃ property ∈ properties, property.2.toJson.mentions key = true := by
  induction properties with
  | nil => simp [writtenProperties, fieldsMention, Entries.names]
  | cons property rest ih =>
    obtain ⟨name, node⟩ := property
    have hnames : Entries.names ((name, node) :: rest) = name :: Entries.names rest := rfl
    rw [writtenProperties, fieldsMention, Bool.or_eq_true, Bool.or_eq_true, ih, hnames,
      List.mem_cons, List.exists_mem_cons_iff, beq_iff_eq, eq_comm (a := name)]
    exact or_or_or_comm

theorem itemsMention_writtenParts {parts : List SchemaNode} :
    itemsMention key (writtenParts parts) = true ↔
      ∃ part ∈ parts, part.toJson.mentions key = true := by
  induction parts with
  | nil => simp [writtenParts, itemsMention]
  | cons part rest ih => simp [writtenParts, itemsMention, ih]

theorem fieldsMention_writtenItems (h : "items" ≠ key) {items : Option SchemaNode} :
    fieldsMention key (writtenItems items) = true ↔
      ∃ node, items = some node ∧ node.toJson.mentions key = true := by
  cases items with
  | none => simp [writtenItems, fieldsMention]
  | some node => simp [writtenItems, fieldsMention, h]

variable {node : SchemaNode}

theorem fieldsMention_headFields (keywords : Keywords) :
    fieldsMention "$ref" (headFields keywords) = keywords.reference.isSome := by
  have hreference : fieldsMention "$ref" (field? "$ref" .string keywords.reference) =
      keywords.reference.isSome := by
    cases keywords.reference <;> rfl
  simp [headFields, fieldsMention_append, fieldsMention_field?, hreference, mentions]

theorem fieldsMention_middleFields (keywords : Keywords) :
    fieldsMention "$ref" (middleFields keywords) =
      itemsMention "$ref" (keywords.enumValues.getD []) := by
  have henum : keywords.enumValues.any (fun values => (Json.array values).mentions "$ref") =
      itemsMention "$ref" (keywords.enumValues.getD []) := by
    cases keywords.enumValues <;> rfl
  simp [middleFields, fieldsMention_append, fieldsMention_field?, fieldsMention_listField?,
    itemsMention_strings, henum]

theorem fieldsMention_tailFields (keywords : Keywords) :
    fieldsMention "$ref" (tailFields keywords) = (keywords.exampleValue.any (mentions "$ref") ||
      keywords.defaultValue.any (mentions "$ref")) := by
  simp [tailFields, fieldsMention_append, fieldsMention_field?, mentions, ofNat]

/-- The values of a node come from three keywords. -/
theorem usesKey_iff : node.UsesKey key ↔ key ∈ node.propertyNames ∨
    itemsMention key (node.enumValues.getD []) = true ∨
      (node.exampleValue.any (mentions key) || node.defaultValue.any (mentions key)) = true := by
  simp [UsesKey, writtenValues, itemsMention_iff, or_and_right, exists_or, Option.any_eq_true]

/-- The parts of a node, in the order in which they are written. -/
theorem exists_part_iff {holds : SchemaNode → Prop} : (∃ child, node.HasPart child ∧ holds child) ↔
    (∃ property ∈ node.properties, holds property.2) ∨ (∃ part ∈ node.allOf, holds part) ∨
      (∃ variant ∈ node.oneOf, holds variant) ∨ ∃ items, node.items = some items ∧ holds items := by
  constructor
  · rintro ⟨child, hpart, hchild⟩
    cases hpart with
    | property hm => exact .inl ⟨_, hm, hchild⟩
    | item hitems => exact .inr (.inr (.inr ⟨child, hitems, hchild⟩))
    | variant hm => exact .inr (.inr (.inl ⟨child, hm, hchild⟩))
    | part hm => exact .inr (.inl ⟨child, hm, hchild⟩)
  · rintro (⟨property, hm, h⟩ | ⟨part, hm, h⟩ | ⟨variant, hm, h⟩ | ⟨items, hitems, h⟩)
    · exact ⟨_, .property hm, h⟩
    · exact ⟨_, .part hm, h⟩
    · exact ⟨_, .variant hm, h⟩
    · exact ⟨_, .item hitems, h⟩

/-- The key of references is mentioned by a reference, and where a name, a value or a part of the
node has it. -/
theorem mentions_toJson_cases : node.toJson.mentions "$ref" = true ↔
    (node.reference ≠ none ∨ node.UsesKey "$ref") ∨
      ∃ child, node.HasPart child ∧ child.toJson.mentions "$ref" = true := by
  rw [exists_part_iff, usesKey_iff, ← Option.isSome_iff_ne_none]
  obtain ⟨keywords, properties, allOf, oneOf, items⟩ := node
  rw [toJson, mentions]
  simp only [fieldsMention_append, Bool.or_eq_true, fieldsMention_headFields,
    fieldsMention_propertyFields (by decide : "properties" ≠ "$ref"),
    fieldsMention_writtenProperties, fieldsMention_middleFields,
    fieldsMention_listField? (by decide : "allOf" ≠ "$ref"),
    fieldsMention_listField? (by decide : "oneOf" ≠ "$ref"), itemsMention_writtenParts,
    fieldsMention_writtenItems (by decide : "items" ≠ "$ref"), fieldsMention_tailFields]
  unfold propertyNames
  dsimp only
  simp only [or_assoc, or_comm, or_left_comm]

theorem HasPart.sizeOf_lt {child : SchemaNode} (h : node.HasPart child) :
    sizeOf child < sizeOf node := by
  obtain ⟨keywords, properties, allOf, oneOf, items⟩ := node
  cases h with
  | property hm =>
    have hentry := List.sizeOf_lt_of_mem hm
    simp only [Prod.mk.sizeOf_spec] at hentry
    simp only [mk.sizeOf_spec]
    omega
  | item hitems =>
    obtain rfl : items = some child := hitems
    simp only [mk.sizeOf_spec, Option.some.sizeOf_spec]
    omega
  | variant hm =>
    have hvariant := List.sizeOf_lt_of_mem hm
    simp only [mk.sizeOf_spec] at hvariant ⊢
    omega
  | part hm =>
    have hpart := List.sizeOf_lt_of_mem hm
    simp only [mk.sizeOf_spec] at hpart ⊢
    omega

/-- The key of references is mentioned just when some node inside is a reference or uses the key. -/
theorem mentions_toJson_eq_false_iff (node : SchemaNode) :
    node.toJson.mentions "$ref" = false ↔
      node.Throughout fun inner => inner.reference = none ∧ ¬ inner.UsesKey "$ref" := by
  rw [throughout_iff, ← Bool.not_eq_true, mentions_toJson_cases, not_or, not_or, not_not,
    not_exists]
  refine and_congr_right fun _ => forall_congr' fun child => ?_
  rw [not_and, Bool.not_eq_true]
  exact imp_congr_right fun hpart => mentions_toJson_eq_false_iff child
termination_by sizeOf node
decreasing_by exact hpart.sizeOf_lt

end SchemaNode

end Keys

section Collected

variable {ε α β : Type} {find : α → Except ε (List β)} {items : List α} {found : List β}

theorem collect_cons (find : α → Except ε (List β)) (item : α) (rest : List α) :
    collect find (item :: rest) =
      find item >>= fun first => collect find rest >>= fun others => .ok (first ++ others) := by
  unfold collect
  rw [List.mapM_cons]
  cases find item with
  | error error => rfl
  | ok first => cases rest.mapM find <;> rfl

/-- A search that ends well has ended well for every item, and has found what was found there. -/
theorem mem_of_collect (h : collect find items = .ok found) :
    (∀ item ∈ items, ∃ results, find item = .ok results) ∧
      ∀ result, result ∈ found ↔
        ∃ item ∈ items, ∃ results, find item = .ok results ∧ result ∈ results := by
  induction items generalizing found with
  | nil =>
    cases h
    simp
  | cons item rest ih =>
    rw [collect_cons] at h
    obtain ⟨first, hfirst, h⟩ := bind_eq_ok_iff.1 h
    obtain ⟨others, hothers, h⟩ := bind_eq_ok_iff.1 h
    obtain rfl := Except.ok.inj h
    obtain ⟨hended, hmem⟩ := ih hothers
    refine ⟨List.forall_mem_cons.2 ⟨⟨first, hfirst⟩, hended⟩, fun result => ?_⟩
    rw [List.mem_append, hmem, List.exists_mem_cons_iff, hfirst]
    simp

/-- A search fails as it does for some item. -/
theorem exists_of_collect_eq_error {error : ε} (h : collect find items = .error error) :
    ∃ item ∈ items, find item = .error error := by
  induction items with
  | nil => cases h
  | cons item rest ih =>
    rw [collect_cons] at h
    cases hitem : find item with
    | error other =>
      rw [hitem] at h
      obtain rfl := Except.error.inj h
      exact ⟨item, List.mem_cons_self, hitem⟩
    | ok first =>
      rw [hitem] at h
      cases hrest : collect find rest with
      | error other =>
        rw [hrest] at h
        obtain rfl := Except.error.inj h
        obtain ⟨other, hm, hother⟩ := ih hrest
        exact ⟨other, List.mem_cons_of_mem _ hm, hother⟩
      | ok others =>
        rw [hrest] at h
        cases h

end Collected

section Problems

variable {check : ValueCheck} {schemas : NameMap SchemaNode} {name path reason : String}
  {schema node : SchemaNode} {value : Json} {messages : List String} {problem : ExampleProblem}
  {problems : List ExampleProblem} {error : ValidationError}

theorem propertyPath_inj {other property : String} :
    propertyPath name other = propertyPath name property ↔ other = property :=
  String.append_right_inj _

namespace ValidationError

/-- An error is about the property that a path leads to. -/
def PointsAt (path : String) : ValidationError → Prop
  | refused other _ => other = path
  | invalid problems => ∃ problem ∈ problems, problem.path = path

theorem conclude_eq (problems : List ExampleProblem) :
    conclude problems = if problems = [] then .ok () else .error (.invalid problems) := by
  cases problems <;> rfl

theorem eq_invalid_of_conclude (h : conclude problems = .error error) :
    error = .invalid problems := by
  rw [conclude_eq] at h
  split at h
  · cases h
  · exact (Except.error.inj h).symm

end ValidationError

namespace SchemaNode

/-- The example of a property is checked: no node of its value schema is a reference, or uses the
key of references. -/
structure IsChecked (node : SchemaNode) (value : Json) : Prop where
  given : node.exampleValue = some value
  free : node.valueSchema.Throughout fun inner =>
    inner.reference = none ∧ ¬ inner.UsesKey "$ref"

theorem IsChecked.exampleMessages_eq (h : node.IsChecked value) :
    node.exampleMessages check = check node.valueSchema.toJson value := by
  have hfree := (mentions_toJson_eq_false_iff node.valueSchema).2 h.free
  unfold exampleMessages
  rw [h.given]
  simp [hfree]

/-- There is nothing to say about an example that is not checked. -/
theorem exampleMessages_of_unchecked (h : ∀ value, ¬ node.IsChecked value) :
    node.exampleMessages check = .ok [] := by
  unfold exampleMessages
  split
  · rfl
  · rename_i value hvalue
    rw [if_pos]
    rw [← Bool.not_eq_false]
    exact fun hfree => h value ⟨hvalue, (mentions_toJson_eq_false_iff _).1 hfree⟩

theorem exampleMessages_eq_error_iff : node.exampleMessages check = .error reason ↔
    ∃ value, node.IsChecked value ∧ check node.valueSchema.toJson value = .error reason := by
  constructor
  · intro h
    by_cases hchecked : ∃ value, node.IsChecked value
    · obtain ⟨value, hvalue⟩ := hchecked
      exact ⟨value, hvalue, hvalue.exampleMessages_eq.symm.trans h⟩
    · rw [exampleMessages_of_unchecked (not_exists.1 hchecked)] at h
      cases h
  · rintro ⟨value, hvalue, hrefused⟩
    exact hvalue.exampleMessages_eq.trans hrefused

theorem exists_mem_exampleMessages_iff {message : String} :
    (∃ messages, node.exampleMessages check = .ok messages ∧ message ∈ messages) ↔
      ∃ value messages, node.IsChecked value ∧
        check node.valueSchema.toJson value = .ok messages ∧ message ∈ messages := by
  constructor
  · rintro ⟨messages, h, hm⟩
    by_cases hchecked : ∃ value, node.IsChecked value
    · obtain ⟨value, hvalue⟩ := hchecked
      exact ⟨value, messages, hvalue, hvalue.exampleMessages_eq.symm.trans h, hm⟩
    · rw [exampleMessages_of_unchecked (not_exists.1 hchecked)] at h
      obtain rfl := Except.ok.inj h
      exact absurd hm List.not_mem_nil
  · rintro ⟨value, messages, hvalue, h, hm⟩
    exact ⟨messages, hvalue.exampleMessages_eq.trans h, hm⟩

theorem problemsAt_eq_ok_iff : node.problemsAt check path = .ok problems ↔
    ∃ messages, node.exampleMessages check = .ok messages ∧
      problems = messages.map (⟨path, ·⟩) := by
  unfold problemsAt
  cases node.exampleMessages check with
  | error reason => exact iff_of_false nofun fun ⟨_, h, _⟩ => nomatch h
  | ok messages => simp [eq_comm]

theorem problemsAt_eq_error_iff : node.problemsAt check path = .error error ↔
    ∃ reason, node.exampleMessages check = .error reason ∧ error = .refused path reason := by
  unfold problemsAt
  cases node.exampleMessages check with
  | error reason => simp [eq_comm]
  | ok messages => exact iff_of_false nofun fun ⟨_, h, _⟩ => nomatch h

/-- The problems of one schema, if none of its value schemas is refused. -/
theorem mem_exampleProblems (h : schema.exampleProblems check name = .ok problems) :
    problem ∈ problems ↔ ∃ property node messages, (property, node) ∈ schema.properties ∧
      node.exampleMessages check = .ok messages ∧ problem.message ∈ messages ∧
      problem.path = propertyPath name property := by
  rw [(mem_of_collect h).2]
  constructor
  · rintro ⟨⟨property, node⟩, hmem, _, hproblems, hproblem⟩
    obtain ⟨messages, hmessages, rfl⟩ := problemsAt_eq_ok_iff.1 hproblems
    obtain ⟨message, hm, rfl⟩ := List.mem_map.1 hproblem
    exact ⟨property, node, messages, hmem, hmessages, hm, rfl⟩
  · rintro ⟨property, node, messages, hmem, hmessages, hm, hpath⟩
    refine ⟨(property, node), hmem, _, problemsAt_eq_ok_iff.2 ⟨messages, hmessages, rfl⟩, ?_⟩
    exact List.mem_map.2 ⟨problem.message, hm, by rw [← hpath]⟩

theorem exists_of_exampleProblems_eq_error
    (h : schema.exampleProblems check name = .error error) :
    ∃ property node reason, (property, node) ∈ schema.properties ∧
      node.exampleMessages check = .error reason ∧
      error = .refused (propertyPath name property) reason := by
  obtain ⟨⟨property, node⟩, hmem, hrefused⟩ := exists_of_collect_eq_error h
  obtain ⟨reason, hreason, herror⟩ := problemsAt_eq_error_iff.1 hrefused
  exact ⟨property, node, reason, hmem, hreason, herror⟩

/-- A property without messages is not to blame for how the validation of its schema ends. -/
theorem not_pointsAt {property : String} (hordered : Entries.Ordered schema.properties)
    (hmem : (property, node) ∈ schema.properties) (hnone : node.exampleMessages check = .ok [])
    (herror : schema.validateExamples check name = .error error) :
    ¬ error.PointsAt (propertyPath name property) := by
  have hsame : ∀ {other : String} {found : SchemaNode}, (other, found) ∈ schema.properties →
      propertyPath name other = propertyPath name property → found = node := by
    intro other found hfound hpath
    obtain rfl := propertyPath_inj.1 hpath
    have hget := (Entries.get?_eq_some_iff hordered).2 hfound
    exact Option.some.inj (hget.symm.trans ((Entries.get?_eq_some_iff hordered).2 hmem))
  unfold validateExamples at herror
  cases hcollect : schema.exampleProblems check name with
  | error failure =>
    rw [hcollect] at herror
    obtain rfl := Except.error.inj herror
    obtain ⟨other, found, reason, hfound, hreason, rfl⟩ :=
      exists_of_exampleProblems_eq_error hcollect
    intro hpath
    rw [hsame hfound hpath, hnone] at hreason
    cases hreason
  | ok problems =>
    rw [hcollect] at herror
    obtain rfl := ValidationError.eq_invalid_of_conclude herror
    rintro ⟨problem, hproblem, hpath⟩
    obtain ⟨other, found, messages, hfound, hmessages, hm, hother⟩ :=
      (mem_exampleProblems hcollect).1 hproblem
    rw [hsame hfound (hother.symm.trans hpath), hnone] at hmessages
    obtain rfl := Except.ok.inj hmessages
    exact List.not_mem_nil hm

end SchemaNode

/-- One of the schemas has a property with an example that is checked. -/
structure Checks (schemas : NameMap SchemaNode) (name property : String) (node : SchemaNode)
    (value : Json) : Prop where
  listed : ∃ schema, schemas.get? name = some schema ∧ (property, node) ∈ schema.properties
  checked : node.IsChecked value

/-- The check gives this text for an example, and the path leads to its property. -/
def Reports (check : ValueCheck) (schemas : NameMap SchemaNode) (problem : ExampleProblem) : Prop :=
  ∃ name property node value messages, Checks schemas name property node value ∧
    check node.valueSchema.toJson value = .ok messages ∧ problem.message ∈ messages ∧
    problem.path = propertyPath name property

/-- The check refuses the value schema of the property that the path leads to. -/
def Refuses (check : ValueCheck) (schemas : NameMap SchemaNode) (path reason : String) : Prop :=
  ∃ name property node value, Checks schemas name property node value ∧
    check node.valueSchema.toJson value = .error reason ∧ path = propertyPath name property

/-- The problems of all schemas, if no value schema is refused. -/
theorem mem_collect_exampleProblems
    (h : collect (fun entry : String × SchemaNode => entry.2.exampleProblems check entry.1)
      schemas.entries = .ok problems) : problem ∈ problems ↔ Reports check schemas problem := by
  have hget : ∀ {name schema}, schemas.get? name = some schema ↔ (name, schema) ∈ schemas.entries :=
    Entries.get?_eq_some_iff schemas.ordered
  obtain ⟨hended, hmem⟩ := mem_of_collect h
  rw [hmem]
  constructor
  · rintro ⟨⟨name, schema⟩, hschema, _, hproblems, hproblem⟩
    obtain ⟨property, node, messages, hproperty, hmessages, hm, hpath⟩ :=
      (SchemaNode.mem_exampleProblems hproblems).1 hproblem
    obtain ⟨value, messages, hchecked, hmessages, hm⟩ :=
      SchemaNode.exists_mem_exampleMessages_iff.1 ⟨messages, hmessages, hm⟩
    exact ⟨name, property, node, value, messages, ⟨⟨schema, hget.2 hschema, hproperty⟩, hchecked⟩,
      hmessages, hm, hpath⟩
  · rintro ⟨name, property, node, value, messages, ⟨⟨schema, hschema, hproperty⟩, hchecked⟩,
      hmessages, hm, hpath⟩
    have hschema := hget.1 hschema
    obtain ⟨results, hresults⟩ := hended _ hschema
    refine ⟨(name, schema), hschema, results, hresults, ?_⟩
    exact (SchemaNode.mem_exampleProblems hresults).2 ⟨property, node, messages, hproperty,
      hchecked.exampleMessages_eq.trans hmessages, hm, hpath⟩

theorem exists_of_collect_exampleProblems_eq_error
    (h : collect (fun entry : String × SchemaNode => entry.2.exampleProblems check entry.1)
      schemas.entries = .error error) :
    ∃ path reason, error = .refused path reason ∧ Refuses check schemas path reason := by
  obtain ⟨⟨name, schema⟩, hschema, herror⟩ := exists_of_collect_eq_error h
  obtain ⟨property, node, reason, hproperty, hreason, rfl⟩ :=
    SchemaNode.exists_of_exampleProblems_eq_error herror
  obtain ⟨value, hchecked, hrefused⟩ := SchemaNode.exampleMessages_eq_error_iff.1 hreason
  have hget := (Entries.get?_eq_some_iff schemas.ordered).2 hschema
  exact ⟨_, reason, rfl, name, property, node, value, ⟨⟨schema, hget, hproperty⟩, hchecked⟩,
    hrefused, rfl⟩

/-- A refusal anywhere keeps the search from ending well. -/
theorem Refuses.collect_ne_ok (h : Refuses check schemas path reason) :
    collect (fun entry : String × SchemaNode => entry.2.exampleProblems check entry.1)
      schemas.entries ≠ .ok problems := by
  obtain ⟨name, property, node, value, ⟨⟨schema, hschema, hproperty⟩, hchecked⟩, hrefused, _⟩ := h
  intro hcollect
  obtain ⟨results, hresults⟩ := (mem_of_collect hcollect).1 _ (Entries.mem_of_get? hschema)
  obtain ⟨found, hfound⟩ := (mem_of_collect hresults).1 _ hproperty
  obtain ⟨messages, hmessages, _⟩ := SchemaNode.problemsAt_eq_ok_iff.1 hfound
  rw [hchecked.exampleMessages_eq, hrefused] at hmessages
  cases hmessages

/-- A validation ends with a refusal, or nothing is refused and it knows all problems. -/
theorem validateExamples_cases (check : ValueCheck) (schemas : NameMap SchemaNode) :
    (∃ path reason, validateExamples check schemas = .error (.refused path reason) ∧
      Refuses check schemas path reason) ∨
    (∀ path reason, ¬ Refuses check schemas path reason) ∧
      ∃ problems, validateExamples check schemas =
          (if problems = [] then .ok () else .error (.invalid problems)) ∧
        ∀ problem, problem ∈ problems ↔ Reports check schemas problem := by
  unfold validateExamples
  cases hcollect : collect (fun entry : String × SchemaNode =>
      entry.2.exampleProblems check entry.1) schemas.entries with
  | error error =>
    obtain ⟨path, reason, rfl, hrefuses⟩ := exists_of_collect_exampleProblems_eq_error hcollect
    exact .inl ⟨path, reason, rfl, hrefuses⟩
  | ok problems =>
    exact .inr ⟨fun path reason hrefuses => hrefuses.collect_ne_ok hcollect, problems,
      ValidationError.conclude_eq problems, fun problem => mem_collect_exampleProblems hcollect⟩

theorem not_refuses_keywordCheck : ¬ Refuses keywordCheck schemas path reason :=
  fun ⟨_, _, _, _, _, hrefused, _⟩ => nomatch hrefused

/-- The check by keywords refuses nothing, so the problems it finds are all there is to say. -/
theorem validateExamples_keywordCheck (schemas : NameMap SchemaNode) :
    validateExamples keywordCheck schemas =
      ValidationError.conclude (exampleProblems schemas) := by
  rcases validateExamples_cases keywordCheck schemas with
    ⟨_, _, _, hrefuses⟩ | ⟨_, problems, h, _⟩
  · exact absurd hrefuses not_refuses_keywordCheck
  · have hproblems : exampleProblems schemas = problems := by
      unfold exampleProblems
      rw [h]
      cases problems <;> rfl
    rw [hproblems, h, ValidationError.conclude_eq]

/-- Whatever the check, a validation ends in a refusal just when the check refuses a value schema,
and then says where. Otherwise the examples pass if there are no problems; the problems are the
texts that the check gives for examples, each at the path of its property, except where a node of
the value schema is a reference, names a property `$ref`, or has the key in its values. The path
reads as a JSON pointer to the schema, its properties and the property exactly if neither name has a
slash or a tilde. -/
theorem exampleProblems_point (check : ValueCheck) (schemas : NameMap SchemaNode) :
    ((∃ path reason, validateExamples check schemas = .error (.refused path reason)) ↔
      ∃ path reason, Refuses check schemas path reason) ∧
    (∀ path reason, validateExamples check schemas = .error (.refused path reason) →
      Refuses check schemas path reason) ∧
    ((∀ path reason, ¬ Refuses check schemas path reason) →
      ∃ problems, validateExamples check schemas =
          (if problems = [] then .ok () else .error (.invalid problems)) ∧
        ∀ problem, problem ∈ problems ↔ Reports check schemas problem) ∧
    ∀ name property : String,
      pointerTokens? (propertyPath name property).toList =
          some [name.toList, "properties".toList, property.toList] ↔
        ('/' ∉ name.toList ∧ '~' ∉ name.toList) ∧
          '/' ∉ property.toList ∧ '~' ∉ property.toList := by
  rcases validateExamples_cases check schemas with
    ⟨path, reason, h, hrefuses⟩ | ⟨hnone, problems, h, hmem⟩
  · refine ⟨iff_of_true ⟨path, reason, h⟩ ⟨path, reason, hrefuses⟩, fun path' reason' h' => ?_,
      fun hnone => absurd hrefuses (hnone path reason), fun _ _ => pointerTokens?_propertyPath⟩
    obtain ⟨rfl, rfl⟩ := ValidationError.refused.inj (Except.error.inj (h.symm.trans h'))
    exact hrefuses
  · have hpassed : ∀ path reason,
        validateExamples check schemas ≠ .error (.refused path reason) := by
      intro path reason hrefused
      rw [h] at hrefused
      split at hrefused <;> cases hrefused
    exact ⟨iff_of_false (fun ⟨path, reason, hrefused⟩ => hpassed path reason hrefused)
        fun ⟨path, reason, hrefuses⟩ => hnone path reason hrefuses,
      fun path reason hrefused => absurd hrefused (hpassed path reason),
      fun _ => ⟨problems, h, hmem⟩, fun _ _ => pointerTokens?_propertyPath⟩

/-- Two parts with a width that is no integer. The name of the first has a slash, and the width of
the second has a default with the key of references. -/
def parts : NameMap SchemaNode :=
  .ofList [("a/Part", { properties := [("width",
      { type := some .integer, exampleValue := some (.string "wide") })] }),
    ("Part", { properties := [("width",
      { type := some .integer, exampleValue := some (.string "wide"),
        defaultValue := some (.object [("$ref", .ofNat 1)]) })] })]

theorem exampleProblems_point_parts :
    (∃ problems, validateExamples keywordCheck parts = .error (.invalid problems) ∧
      ⟨"/a/Part/properties/width", "\"wide\" is not of type \"integer\""⟩ ∈ problems) ∧
      ∃ path reason, validateExamples (fun _ _ => .error "refused") parts =
        .error (.refused path reason) := by
  obtain ⟨schema, node, hschema, hproperty, hchecked⟩ : ∃ schema node,
      parts.get? "a/Part" = some schema ∧ ("width", node) ∈ schema.properties ∧
        node.IsChecked (.string "wide") ∧ keywordCheck node.valueSchema.toJson (.string "wide") =
          .ok ["\"wide\" is not of type \"integer\""] := by
    refine ⟨_, _, rfl, List.mem_cons_self, ⟨rfl, ?_⟩, by decide +kernel⟩
    exact (SchemaNode.mentions_toJson_eq_false_iff _).1 (by decide +kernel)
  have hwidth : Checks parts "a/Part" "width" node (.string "wide") :=
    ⟨⟨schema, hschema, hproperty⟩, hchecked.1⟩
  refine ⟨?_, ?_⟩
  · obtain ⟨_, _, hpassed, _⟩ := exampleProblems_point keywordCheck parts
    obtain ⟨problems, houtcome, hproblems⟩ := hpassed fun _ _ => not_refuses_keywordCheck
    have hmem : ⟨"/a/Part/properties/width", "\"wide\" is not of type \"integer\""⟩ ∈ problems := by
      refine (hproblems _).2 ⟨"a/Part", "width", node, _, _, hwidth, hchecked.2, ?_, by decide⟩
      exact List.mem_singleton_self _
    rw [if_neg (List.ne_nil_of_mem hmem)] at houtcome
    exact ⟨problems, houtcome, hmem⟩
  · obtain ⟨hrefused, _⟩ := exampleProblems_point (fun _ _ => .error "refused") parts
    exact hrefused.2 ⟨_, "refused", "a/Part", "width", node, _, hwidth, rfl, rfl⟩

/-- The only problem has a path with four tokens, and the second width is passed over although it
has no references and does not fit. -/
theorem parts_mislead :
    (∃ message, validateExamples keywordCheck parts =
      .error (.invalid [⟨"/a/Part/properties/width", message⟩])) ∧
      pointerTokens? "/a/Part/properties/width".toList =
        some ["a".toList, "Part".toList, "properties".toList, "width".toList] ∧
      ∃ schema node, parts.get? "Part" = some schema ∧ schema.property? "width" = some node ∧
        node.exampleValue = some (.string "wide") ∧
        keywordCheck node.valueSchema.toJson (.string "wide") ≠ .ok [] ∧
        (node.valueSchema.Throughout fun inner => inner.reference = none) ∧
        node.exampleMessages keywordCheck = .ok [] := by
  refine ⟨⟨"\"wide\" is not of type \"integer\"", by decide +kernel⟩, by decide +kernel, _, _,
    by rfl, by rfl, by rfl, by decide +kernel, ?_, by decide +kernel⟩
  refine SchemaNode.throughout_iff.2 ⟨by rfl, fun child hpart => ?_⟩
  exact absurd hpart SchemaNode.not_hasPart_ofKeywords

end Problems

end OntoSchema
