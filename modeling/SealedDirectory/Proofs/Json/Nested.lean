import SealedDirectory.Proofs.Json.Printed

/-!
# Reading nested documents back

A document is read back from what is printed for it, however its lists and objects are
nested, as long as they are not deeper than the reader goes.  Two kinds of documents are
left out.  A number that is no whole number of sixty-four bits comes back as a double,
or not at all; and an object comes back with its fields in the order of their names, so
one that has them in another order does not come back as it was.
-/

namespace SealedDirectory.Json

open Reader

namespace Reader

/-! ## Lists -/

/-- The characters between the brackets of a list that begins at a level. -/
def within
    (layout : Layout)
    (level : Nat) :
    List Json → List Char
  | [] => []
  | item :: more =>
      layout.lineBreak (level + 1) ++ (chars layout (level + 1) item ++
        (moreItems layout (level + 1) more ++ layout.lineBreak level))

theorem chars_list
    (layout : Layout)
    (level : Nat)
    (items : List Json)
    (rest : List Char) :
    chars layout level (.list items) ++ rest =
      '[' :: (within layout level items ++ ']' :: rest) := by
  cases items with
  | nil => simp [chars, within]
  | cons first more => simp [chars, within]

/--
What is printed for a document begins with a character that neither is a blank nor
closes a list.
-/
def Begins
    (layout : Layout)
    (document : Json) :
    Prop :=
  ∀ level, ∃ char others,
    chars layout level document = char :: others ∧ isSpace char = false ∧ char ≠ ']'

theorem length_le_moreItems
    (layout : Layout)
    (level : Nat)
    (items : List Json) :
    items.length ≤ (moreItems layout level items).length := by
  induction items with
  | nil => exact Nat.zero_le _
  | cons item more ih =>
      simp only [moreItems, List.length_cons, List.length_append]
      omega

theorem length_le_within
    {layout : Layout}
    {items : List Json}
    (begins : ∀ item ∈ items, Begins layout item)
    (level : Nat) :
    items.length ≤ (within layout level items).length := by
  cases items with
  | nil => exact Nat.zero_le _
  | cons item more =>
      obtain ⟨char, others, printed, -⟩ := begins item (List.mem_cons_self ..) (level + 1)
      have shorter := length_le_moreItems layout (level + 1) more
      simp only [within, printed, List.cons_append, List.length_cons, List.length_append]
      omega

section

variable
  {blanks others rest : List Char}
  {char : Char}
  (blank : Blank blanks)
  (solid : isSpace char = false)
  (inside : char ≠ ']')

include blank

theorem yields_lastItem (isFirst : Bool) :
    (hasItem isFirst).Yields (blanks ++ ']' :: rest) false (']' :: rest) :=
  (yields_token blank _ rfl).bind (yields_pure _ _)

include solid inside

theorem yields_firstItem :
    (hasItem true).Yields (blanks ++ char :: others) true (char :: others) := by
  apply (yields_token blank .endOfList solid).bind
  rw [if_neg inside]
  exact yields_pure _ _

theorem yields_nextItem :
    (hasItem false).Yields (',' :: (blanks ++ char :: others)) true (char :: others) := by
  apply (yields_peekToken .endOfList rfl).bind
  apply (yields_skip _ _).bind
  apply (yields_token blank .endOfValue solid).bind
  rw [if_neg inside]
  exact yields_pure _ _

end

theorem yields_closeList (rest : List Char) :
    closeList.Yields (']' :: rest) () rest :=
  (yields_peekToken _ rfl).bind (yields_skip _ _)

section

variable
  {α : Type}
  {codec : Codec α}
  {layout : Layout}
  {depth : Nat}
  {values : List α}

theorem delimited_moreItems
    (loose : layout.Loose)
    (more : List Json)
    (level outer : Nat)
    (rest : List Char) :
    Delimited (moreItems layout level more ++ (layout.lineBreak outer ++ ']' :: rest)) := by
  cases more with
  | nil => exact delimited_blank (loose.lineBreak outer) (.inr (.inl rfl))
  | cons item more => exact delimited_blank blank_nil (.inl rfl)

/-- An item is read back from its first character up to what follows it. -/
theorem yields_item
    {value : α}
    {level : Nat}
    {char : Char}
    {others rest : List Char}
    (back : codec.ReadsBack layout depth value)
    (printed : chars layout level (codec.write value) = char :: others)
    (delimited : Delimited rest) :
    (codec.read depth).Yields (char :: (others ++ rest)) value rest := by
  have reads := back level [] rest blank_nil delimited
  rwa [printed] at reads

/-- The items after the first one are read, up to the closing bracket. -/
theorem yields_moreItems
    (loose : layout.Loose)
    (begins : ∀ value ∈ values, Begins layout (codec.write value))
    (back : ∀ value ∈ values, codec.ReadsBack layout depth value)
    (level outer : Nat)
    (rest : List Char)
    {fuel : Nat}
    (enough : values.length < fuel) :
    (items (codec.read depth) false fuel).Yields
      (moreItems layout level (values.map codec.write) ++
        (layout.lineBreak outer ++ ']' :: rest))
      values (']' :: rest) := by
  induction values generalizing fuel with
  | nil =>
      obtain ⟨fuel, rfl⟩ := Nat.exists_eq_succ_of_ne_zero (Nat.ne_of_gt enough)
      exact (yields_lastItem (loose.lineBreak outer) false).bind (yields_pure _ _)
  | cons value values ih =>
      obtain ⟨fuel, rfl⟩ := Nat.exists_eq_succ_of_ne_zero (Nat.ne_of_gt (Nat.zero_lt_of_lt enough))
      obtain ⟨char, others, printed, solid, inside⟩ := begins value (List.mem_cons_self ..) level
      have following := delimited_moreItems loose (values.map codec.write) level outer rest
      have reads := yields_item (back value (List.mem_cons_self ..)) printed following
      have remaining := ih (fun other member => begins other (List.mem_cons_of_mem _ member))
        (fun other member => back other (List.mem_cons_of_mem _ member))
        (Nat.lt_of_succ_lt_succ enough)
      simp only [List.map_cons, moreItems, printed, List.cons_append, List.append_assoc]
      exact (yields_nextItem (loose.lineBreak level) solid inside).bind
        (reads.bind (remaining.bind (yields_pure _ _)))

/-- The items between the brackets of a list are read, up to the closing bracket. -/
theorem yields_items
    (loose : layout.Loose)
    (begins : ∀ value ∈ values, Begins layout (codec.write value))
    (back : ∀ value ∈ values, codec.ReadsBack layout depth value)
    (level : Nat)
    (rest : List Char)
    {fuel : Nat}
    (enough : values.length < fuel) :
    (items (codec.read depth) true fuel).Yields
      (within layout level (values.map codec.write) ++ ']' :: rest) values (']' :: rest) := by
  obtain ⟨fuel, rfl⟩ := Nat.exists_eq_succ_of_ne_zero (Nat.ne_of_gt (Nat.zero_lt_of_lt enough))
  cases values with
  | nil => exact (yields_lastItem blank_nil true).bind (yields_pure _ _)
  | cons value values =>
      obtain ⟨char, others, printed, solid, inside⟩ :=
        begins value (List.mem_cons_self ..) (level + 1)
      have following := delimited_moreItems loose (values.map codec.write) (level + 1) level rest
      have reads := yields_item (back value (List.mem_cons_self ..)) printed following
      have remaining := yields_moreItems loose
        (fun other member => begins other (List.mem_cons_of_mem _ member))
        (fun other member => back other (List.mem_cons_of_mem _ member))
        (level + 1) level rest (Nat.lt_of_succ_lt_succ enough)
      simp only [List.map_cons, within, printed, List.cons_append, List.append_assoc]
      exact (yields_firstItem (loose.lineBreak (level + 1)) solid inside).bind
        (reads.bind (remaining.bind (yields_pure _ _)))

end

end Reader

/-! ## Objects -/

/-- A field whose name comes after all others is put at the end. -/
theorem insertField_last
    {name : String}
    {fields : List (String × Json)}
    (value : Json)
    (before : ∀ field ∈ fields, field.1 < name) :
    insertField name value fields = fields ++ [(name, value)] := by
  induction fields with
  | nil => rfl
  | cons field fields ih =>
      have here : field.1 < name := before field (List.mem_cons_self ..)
      have others := ih fun other member => before other (List.mem_cons_of_mem _ member)
      rw [insertField, if_neg (String.lt_asymm here), if_neg (String.ne_of_lt here).symm, others,
        List.cons_append]

/-- The names of fields ascend. -/
def Ascending (fields : List (String × Json)) : Prop :=
  fields.Pairwise fun field later => field.1 < later.1

/-- Fields with ascending names are put one behind the other. -/
theorem foldl_insertField
    {held fields : List (String × Json)}
    (ascending : Ascending (held ++ fields)) :
    fields.foldl (fun held field => insertField field.1 field.2 held) held = held ++ fields := by
  induction fields generalizing held with
  | nil => simp
  | cons field fields ih =>
      have before : ∀ other ∈ held, other.1 < field.1 := fun other member =>
        (List.pairwise_append.mp ascending).2.2 other member field (List.mem_cons_self ..)
      have moved : held ++ field :: fields = held ++ [field] ++ fields := by simp
      rw [List.foldl_cons, insertField_last field.2 before, ih (moved ▸ ascending), ← moved]

/-! ## Documents -/

namespace Reader

/--
A document in which lists and objects are nested at most so many levels deep.  It has no
number that would be read as a double, and every object has its fields in the order of
their names, as an object has that was read from a text.
-/
inductive Nested : (levels : Nat) → Json → Prop
  | plain
      {levels : Nat}
      {document : Json}
      (plain : Plain document) :
      Nested levels document
  | list
      {levels : Nat}
      {items : List Json}
      (nested : ∀ item ∈ items, Nested levels item) :
      Nested (levels + 1) (.list items)
  | object
      {levels : Nat}
      {fields : List (String × Json)}
      (ascending : Ascending fields)
      (nested : ∀ field ∈ fields, Nested levels field.2) :
      Nested (levels + 1) (.object fields)

/-- A document is nested as deeply as any greater number of levels says. -/
theorem Nested.mono
    {document : Json}
    {levels more : Nat}
    (nested : Nested levels document)
    (atMost : levels ≤ more) :
    Nested more document := by
  induction nested generalizing more with
  | plain plain => exact .plain plain
  | list nested ih =>
      obtain ⟨more, rfl⟩ := Nat.exists_eq_add_of_le' (Nat.zero_lt_of_lt atMost)
      exact .list fun item member => ih item member (Nat.le_of_succ_le_succ atMost)
  | object ascending nested ih =>
      obtain ⟨more, rfl⟩ := Nat.exists_eq_add_of_le' (Nat.zero_lt_of_lt atMost)
      exact .object ascending fun field member =>
        ih field member (Nat.le_of_succ_le_succ atMost)

section

variable
  {document : Json}
  {levels : Nat}
  (layout : Layout)

theorem begins_list (items : List Json) :
    Begins layout (.list items) := by
  intro level
  have printed := chars_list layout level items []
  rw [List.append_nil] at printed
  exact ⟨'[', _, printed, rfl, by decide⟩

theorem begins_object (fields : List (String × Json)) :
    Begins layout (.object fields) := by
  intro level
  have printed := chars_object layout level fields []
  rw [List.append_nil] at printed
  exact ⟨'\x7b', _, printed, rfl, by decide⟩

theorem Plain.begins (plain : Plain document) :
    Begins layout document := by
  intro level
  cases plain with
  | null => exact ⟨'n', _, rfl, rfl, by decide⟩
  | bool value =>
      cases value with
      | true => exact ⟨'t', _, rfl, rfl, by decide⟩
      | false => exact ⟨'f', _, rfl, rfl, by decide⟩
  | @integer value inRange =>
      obtain ⟨char, others, printed, isNumber, solid, -⟩ := integerChars_head value
      refine ⟨char, others, printed, solid, ?_⟩
      rintro rfl
      exact absurd isNumber (by decide)
  | text value => exact ⟨'"', _, rfl, rfl, by decide⟩

theorem Nested.begins (nested : Nested levels document) :
    Begins layout document := by
  cases nested with
  | plain plain => exact plain.begins layout
  | list nested => exact begins_list layout _
  | object ascending nested => exact begins_object layout _

end

end Reader

namespace Codec

variable
  {layout : Layout}
  {depth : Nat}

/-- A plain document is read back under every layout. -/
theorem readsBack_plain
    {document : Json}
    (plain : Plain document)
    (layout : Layout)
    (depth : Nat) :
    Codec.document.ReadsBack layout (depth + 1) document := by
  intro level blanks rest blank delimited
  cases plain with
  | null =>
      exact (yields_token blank _ rfl).bind ((yields_skip _ _).bind
        ((yields_word ['u', 'l', 'l'] rest).bind (yields_pure _ _)))
  | bool held =>
      cases held with
      | true =>
          exact (yields_token blank _ rfl).bind ((yields_skip _ _).bind
            ((yields_word ['r', 'u', 'e'] rest).bind (yields_pure _ _)))
      | false =>
          exact (yields_token blank _ rfl).bind ((yields_skip _ _).bind
            ((yields_word ['a', 'l', 's', 'e'] rest).bind (yields_pure _ _)))
  | @integer held inRange =>
      obtain ⟨char, others, begins, beginsNumber, solid, noNull, noTrue, noFalse⟩ :=
        integerChars_head held
      have reads := yields_number inRange delimited
      show Yields _ (blanks ++ (integerChars held ++ rest)) _ _
      rw [begins, List.cons_append] at reads ⊢
      apply (yields_token blank .endOfValue solid).bind
      simp only [noNull, noTrue, noFalse, beginsNumber, if_false, if_true]
      exact reads.bind (yields_pure _ _)
  | text held =>
      show Yields _ (blanks ++ (textChars held ++ rest)) _ _
      rw [textChars_append]
      exact (yields_token blank _ rfl).bind ((yields_skip _ _).bind
        ((yields_quoted held rest).bind (yields_pure _ _)))

/-- A list of documents is read back one level higher than its items. -/
theorem readsBack_items
    {items : List Json}
    (loose : layout.Loose)
    (begins : ∀ item ∈ items, Begins layout item)
    (back : ∀ item ∈ items, document.ReadsBack layout (depth + 1) item) :
    document.ReadsBack layout (depth + 2) (.list items) := by
  intro level blanks rest blank delimited
  have shorter := length_le_within begins level
  have written : items.map document.write = items := List.map_id items
  have read {fuel : Nat} (enough : items.length < fuel) :=
    yields_items loose begins back level rest enough
  rw [written] at read
  show Yields _ (blanks ++ (chars layout level (.list items) ++ rest)) _ _
  rw [chars_list]
  apply (yields_token blank .endOfValue rfl).bind
  apply (yields_skip _ _).bind
  refine Yields.closing ?_ (yields_closeList rest)
  apply (yields_fuel _).bind
  refine (read ?_).bind (yields_pure _ _)
  rw [List.length_append]
  omega

/-- An object is read back one level higher than the values of its fields. -/
theorem readsBack_object
    {fields : List (String × Json)}
    (loose : layout.Loose)
    (ascending : Ascending fields)
    (back : ∀ field ∈ fields, document.ReadsBack layout (depth + 1) field.2) :
    document.ReadsBack layout (depth + 2) (.object fields) := by
  intro level blanks rest blank delimited
  have written : (fields.map fun field => (id field.1, document.write field.2)) = fields :=
    List.map_id fields
  have read :
      ReadsFields layout (readEntry document .ok insertField (depth + 1))
        (fields.map fun field => (id field.1, document.write field.2)) []
        (fields.foldl (fun held field => insertField field.1 field.2 held) []) :=
    readsFields_readEntry insertField loose fields (fun _ _ => rfl) back []
  rw [written, foldl_insertField (show Ascending ([] ++ fields) from ascending),
    List.nil_append] at read
  have shorter := length_le_inside layout level fields
  show Yields _ (blanks ++ (chars layout level (.object fields) ++ rest)) _ _
  rw [chars_object]
  apply (yields_token blank .endOfValue rfl).bind
  apply (yields_skip _ _).bind
  refine Yields.closing ?_ (yields_closeObject rest)
  apply (yields_fuel _).bind
  refine (read.yields_fields loose level rest ?_).bind (yields_pure _ _)
  rw [List.length_append]
  omega

/-- What a nested document is printed as is read back by a reader that goes deep enough. -/
theorem readsBack_nested
    {document : Json}
    {levels : Nat}
    (loose : layout.Loose)
    (nested : Nested levels document)
    (deep : levels < depth) :
    Codec.document.ReadsBack layout depth document := by
  induction nested generalizing depth with
  | plain plain =>
      obtain ⟨depth, rfl⟩ := Nat.exists_eq_succ_of_ne_zero (Nat.ne_of_gt (Nat.zero_lt_of_lt deep))
      exact readsBack_plain plain layout depth
  | list nested ih =>
      obtain ⟨depth, rfl⟩ := Nat.exists_eq_add_of_le' (show 2 ≤ depth by omega)
      exact readsBack_items loose (fun item member => (nested item member).begins layout)
        fun item member => ih item member (by omega)
  | object ascending nested ih =>
      obtain ⟨depth, rfl⟩ := Nat.exists_eq_add_of_le' (show 2 ≤ depth by omega)
      exact readsBack_object loose ascending fun field member => ih field member (by omega)

end Codec

end SealedDirectory.Json
