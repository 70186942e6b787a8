import SealedDirectory.Proofs.Json.Members

/-!
# Records that were edited

The object of a record may have lost some of its fields and gained others of foreign names,
in any order and with blanks anywhere.  What is left of the record fills the slots of its
names, foreign fields are passed over, and the slots that stay empty are seen to at the end.
-/

namespace SealedDirectory.Json

open Reader

/-! ## Slots -/

namespace Fields

variable
  {types : List Type}
  {depth : Nat}

/-- The slots of some names are filled with the values of a row, and no others. -/
def held : {types : List Type} → Fields types → Row types → List String → Slots types
  | _, .nil, _, _ => ()
  | _, .cons field rest, (value, values), names =>
      (if field.name ∈ names then some value else none, rest.held values names)

theorem held_nil
    (fields : Fields types)
    (row : Row types) :
    fields.held row [] = fields.unread := by
  induction fields with
  | nil => rfl
  | cons field rest ih => exact congrArg (Prod.mk none) (ih row.2)

/-- Which slots are filled depends on the names of the fields alone, whatever their order. -/
theorem held_congr
    {fields : Fields types}
    {names others : List String}
    (same : ∀ name ∈ fields.names, name ∈ names ↔ name ∈ others)
    (row : Row types) :
    fields.held row names = fields.held row others := by
  induction fields with
  | nil => rfl
  | cons field rest ih =>
      obtain ⟨value, values⟩ := row
      have first := same field.name (List.mem_cons_self ..)
      have more := ih (fun name member => same name (List.mem_cons_of_mem _ member)) values
      rw [held, held, more, if_congr first rfl rfl]

/-- No field of a record may be left out. -/
def Strict : {types : List Type} → Fields types → Prop
  | _, .nil => True
  | _, .cons field rest => field.fallback = none ∧ field.codec.absent = none ∧ rest.Strict

/-- Of a strict record the first field that is missing is reported. -/
theorem complete_held_of_strict
    {fields : Fields types}
    (strict : fields.Strict)
    (row : Row types)
    (names : List String) :
    fields.complete (fields.held row names) =
      ((fields.names.find? fun name => name ∉ names).map .missingField).elim (.ok row) .error := by
  induction fields with
  | nil => rfl
  | cons field rest ih =>
      obtain ⟨value, values⟩ := row
      obtain ⟨noFallback, noAbsent, strict⟩ := strict
      have others := ih strict values
      by_cases member : field.name ∈ names
      · have present : (cons field rest).held (value, values) names =
            (some value, rest.held values names) := by
          rw [held, if_pos member]
        have skipped : (cons field rest).names.find? (fun name => name ∉ names) =
            rest.names.find? fun name => name ∉ names :=
          List.find?_cons_of_neg (by simpa using member)
        rw [present, skipped, complete, others]
        cases rest.names.find? fun name => name ∉ names <;> rfl
      · have missing : (cons field rest).held (value, values) names =
            (none, rest.held values names) := by
          rw [held, if_neg member]
        have found : (cons field rest).names.find? (fun name => name ∉ names) = some field.name :=
          List.find?_cons_of_pos (by simpa using member)
        rw [missing, found, complete, noFallback, noAbsent]
        rfl

/--
What may stand as the value of a name, and what reading it comes to: the value that a row
has for the name, unless a fault is to be expected there.
-/
def Reads
    (depth : Nat)
    (fault? : String → Option Cause) :
    {types : List Type} → Fields types → Row types → String → List Char → Prop
  | _, .nil, _, _, _ => False
  | _, .cons field rest, (value, values), name, chars =>
      if name = field.name then
        ∀ blanks after, Blank blanks → Delimited after →
          (field.codec.read depth).Gives (blanks ++ (chars ++ after))
            ((fault? name).elim (.ok value) .error) after
      else rest.Reads depth fault? values name chars

/-- What was written for a name may stand as its value. -/
theorem reads_of_mem_write
    {fields : Fields types}
    {row : Row types}
    {fault? : String → Option Cause}
    {layout : Layout}
    {name : String}
    {document : Json}
    (distinct : fields.names.Nodup)
    (back : fields.ReadsBack layout depth row)
    (member : (name, document) ∈ fields.write row)
    (sound : fault? name = none)
    (level : Nat) :
    fields.Reads depth fault? row name (chars layout level document) := by
  induction fields with
  | nil => exact absurd member List.not_mem_nil
  | cons field rest ih =>
      obtain ⟨value, values⟩ := row
      obtain ⟨alone, distinct⟩ := List.nodup_cons.mp distinct
      rcases List.mem_cons.mp member with isFirst | member
      · obtain ⟨rfl, rfl⟩ := Prod.mk.inj isFirst
        rw [Reads, if_pos rfl, sound]
        exact back.1 level
      · have other : name ≠ field.name := by
          rintro rfl
          exact alone (rest.mem_names_of_mem_write values member)
        rw [Reads, if_neg other]
        exact ih distinct back.2 member

/-- The value of a name fills its slot. -/
theorem gives_readNamed
    {fields : Fields types}
    {row : Row types}
    {fault? : String → Option Cause}
    {name : String}
    {seen : List String}
    {member : Member}
    {after : List Char}
    (distinct : fields.names.Nodup)
    (reads : fields.Reads depth fault? row name member.value)
    (fresh : name ∉ seen)
    (spaced : member.Spaced)
    (delimited : Delimited after) :
    (fields.readNamed depth name (fields.held row seen)).Gives (member.entry ++ after)
      ((fault? name).elim (.ok (fields.held row (name :: seen))) .error) after := by
  induction fields with
  | nil => exact absurd reads id
  | cons field rest ih =>
      obtain ⟨value, values⟩ := row
      obtain ⟨alone, distinct⟩ := List.nodup_cons.mp distinct
      by_cases same : name = field.name
      · subst same
        have before : (cons field rest).held (value, values) seen =
            (none, rest.held values seen) := by
          rw [held, if_neg fresh]
        have filled : (cons field rest).held (value, values) (field.name :: seen) =
            (some value, rest.held values seen) := by
          rw [held, if_pos (List.mem_cons_self ..), held_congr]
          intro name member
          have other : name ≠ field.name := fun same => alone (same ▸ member)
          exact List.mem_cons.trans (or_iff_right other)
        rw [Reads, if_pos rfl] at reads
        have gives := reads member.before after spaced.before delimited
        rw [before, filled, readNamed_same, Member.entry_append]
        apply (yields_colon_blank spaced.gap _).bind_gives
        exact gives.bind_pure fun value => (some value, rest.held values seen)
      · rw [Reads, if_neg same] at reads
        have gives := ih distinct reads
        have others : (cons field rest).held (value, values) (name :: seen) =
            (if field.name ∈ seen then some value else none, rest.held values (name :: seen)) := by
          have other : field.name ∈ name :: seen ↔ field.name ∈ seen :=
            List.mem_cons.trans (or_iff_right (Ne.symm same))
          rw [held, if_congr other rfl rfl]
        rw [held, others, readNamed_other same]
        exact gives.bind_pure (Prod.mk _)

/-- A field of a foreign name leaves the slots as they are. -/
theorem yields_readNamed_foreign
    {fields : Fields types}
    {name : String}
    {member : Member}
    {after : List Char}
    (unknown : name ∉ fields.names)
    (spaced : member.Spaced)
    (phrase : Phrase member.value)
    (delimited : Delimited after)
    (slots : Slots types) :
    (fields.readNamed depth name slots).Yields (member.entry ++ after) slots after := by
  induction fields with
  | nil =>
      have enough : member.value.length ≤ (member.before ++ (member.value ++ after)).length := by
        simp only [List.length_append]
        omega
      rw [Member.entry_append]
      apply (yields_colon_blank spaced.gap _).bind
      apply (yields_fuel _).bind
      exact (phrase.passesOver enough _ _ spaced.before delimited).bind (yields_pure _ _)
  | cons field rest ih =>
      obtain ⟨slot, slots⟩ := slots
      have other : name ≠ field.name := fun same => unknown (same ▸ List.mem_cons_self ..)
      have within : name ∉ rest.names := fun member => unknown (List.mem_cons_of_mem _ member)
      rw [readNamed_other other]
      exact (ih within slots).bind (yields_pure _ _)

end Fields

/-! ## Records -/

/--
The members of an object that was edited.  Of the known names some are left, each with a
value that may be written for it; the other names are foreign.
-/
inductive Edited
    (known : List String)
    (writes : String → List Char → Prop) :
    (names : List String) → List Member → Prop
  | nil : Edited known writes [] []
  | left
      {name : String}
      {member : Member}
      {names : List String}
      {members : List Member}
      (spaced : member.Spaced)
      (spells : Spells member.name name.toList)
      (written : writes name member.value)
      (fresh : name ∉ names)
      (others : Edited known writes names members) :
      Edited known writes (name :: names) (member :: members)
  | foreign
      {name : String}
      {member : Member}
      {names : List String}
      {members : List Member}
      (spaced : member.Spaced)
      (spells : Spells member.name name.toList)
      (unknown : name ∉ known)
      (phrase : Phrase member.value)
      (others : Edited known writes names members) :
      Edited known writes names (member :: members)

section

variable
  {types : List Type}
  {fields : Fields types}
  {row : Row types}
  {depth : Nat}
  {fault? : String → Option Cause}
  {writes : String → List Char → Prop}
  {names : List String}
  {members : List Member}
  (edited : Edited fields.names writes names members)
  (distinct : fields.names.Nodup)
  (reads : ∀ name value, writes name value → fields.Reads (depth + 1) fault? row name value)

include edited distinct reads

/-- The names that are left fill their slots, up to the first one at which there is a fault. -/
theorem Edited.takes
    {seen : List String}
    (fresh : ∀ name ∈ names, name ∉ seen) :
    Takes (fun name slots => fields.readNamed (depth + 1) name slots) members (fields.held row seen)
      ((names.findSome? fault?).elim (.ok (fields.held row (names.reverse ++ seen))) .error) := by
  induction edited generalizing seen with
  | nil => exact .nil _
  | @left name member names members spaced spells written here others ih =>
      have gives (after : List Char) (delimited : Delimited after) :=
        Fields.gives_readNamed distinct (reads name member.value written)
          (fresh name (List.mem_cons_self ..)) spaced delimited
      rw [List.findSome?_cons]
      cases isFault : fault? name with
      | none =>
          -- A name that is left further on is neither this one nor an earlier one.
          have later : ∀ other ∈ names, other ∉ name :: seen := by
            intro other member isSeen
            rcases List.mem_cons.mp isSeen with rfl | isSeen
            · exact here member
            · exact fresh other (List.mem_cons_of_mem _ member) isSeen
          rw [isFault] at gives
          rw [List.reverse_cons, List.append_assoc]
          exact .cons spaced spells gives (ih later)
      | some cause =>
          rw [isFault] at gives
          exact .fault spaced spells gives
  | foreign spaced spells unknown phrase others ih =>
      refine .cons spaced spells (fun after delimited => ?_) (ih fresh)
      exact Fields.yields_readNamed_foreign unknown spaced phrase delimited _

/-- An edited record comes to what its fields make of the names that are left. -/
theorem Edited.gives_record
    {α : Type}
    {ofRow : Row types → α}
    {toRow : α → Row types}
    {typeName : String}
    {blanks within : List Char}
    (blank : Blank blanks)
    (blankWithin : Blank within)
    (rest : List Char) :
    ((Codec.record typeName fields ofRow toRow).read (depth + 2)).Gives
      (blanks ++ (objectChars members within ++ rest))
      ((names.findSome? fault?).elim (ofRow <$> fields.complete (fields.held row names)) .error)
      rest := by
  have takes := edited.takes distinct reads fun name _ => List.not_mem_nil (a := name)
  have shorter := length_le_memberChars members within ('\x7d' :: rest)
  have ordered : fields.held row names.reverse = fields.held row names :=
    Fields.held_congr (fun _ _ => List.mem_reverse) row
  rw [List.append_nil, Fields.held_nil, ordered] at takes
  have given := takes.gives_fields blankWithin rest (Nat.lt_succ_of_le shorter)
  rw [objectChars_append]
  apply (yields_token blank .endOfValue rfl).bind_gives
  rw [if_neg (by decide), if_pos rfl]
  apply (yields_skip _ _).bind_gives
  cases isFault : names.findSome? fault? with
  | some cause =>
      rw [isFault] at given
      exact Fails.closing ((yields_fuel _).bind_fails (Fails.bind given _)) _
  | none =>
      rw [isFault] at given
      cases completed : fields.complete (fields.held row names) with
      | ok row =>
          refine Yields.closing ((yields_fuel _).bind (Yields.bind given ?_))
            (yields_closeObject rest)
          rw [completed]
          exact yields_pure _ _
      | error cause =>
          refine Refuses.closing ((yields_fuel _).bind_refuses (Yields.bind_refuses given ?_))
            (yields_closeObject rest)
          rw [completed]
          exact refuses_refuse cause _

end

/-! ## What was printed -/

section

variable
  {layout : Layout}
  {gap : List Char}

/-- A field as it is printed at a level. -/
def printedMember
    (layout : Layout)
    (gap : List Char)
    (level : Nat)
    (field : String × Json) :
    Member where
  front := layout.lineBreak level
  name := field.1.toList.flatMap escaped
  gap := []
  before := gap
  value := chars layout level field.2
  after := []

theorem spaced_printedMember
    (loose : layout.Loose)
    (blank : Blank gap)
    (level : Nat)
    (field : String × Json) :
    (printedMember layout gap level field).Spaced where
  front := loose.lineBreak level
  gap := blank_nil
  before := blank
  after := blank_nil

theorem lead_printedMember
    (colon : layout.colon = ':' :: gap)
    (level : Nat)
    (name : String)
    (value : Json) :
    (printedMember layout gap level (name, value)).part.lead =
      layout.lineBreak level ++ (textChars name ++ (layout.colon ++ chars layout level value)) := by
  simp [printedMember, Member.part, Member.entry, textChars, colon]

theorem following_printedMember
    (colon : layout.colon = ':' :: gap)
    (level : Nat)
    (pairs : List (String × Json))
    (tail : List Char) :
    following [] ((pairs.map (printedMember layout gap level)).map Member.part) tail =
      moreFields layout level pairs ++ tail := by
  induction pairs with
  | nil => rfl
  | cons pair pairs ih =>
      obtain ⟨name, value⟩ := pair
      rw [List.map_cons, List.map_cons, following_cons, lead_printedMember colon]
      show ',' :: (_ ++ following [] _ tail) = _
      rw [ih]
      simp [moreFields]

/-- A printed object is the row of its printed fields. -/
theorem chars_object_eq
    (colon : layout.colon = ':' :: gap)
    (level : Nat)
    (first : String × Json)
    (more : List (String × Json)) :
    chars layout level (.object (first :: more)) =
      objectChars ((first :: more).map (printedMember layout gap (level + 1)))
        (layout.lineBreak level) := by
  obtain ⟨name, value⟩ := first
  have braces := chars_object layout level ((name, value) :: more) []
  rw [List.append_nil] at braces
  rw [braces, ← List.append_nil (objectChars _ _), objectChars_append, List.map_cons,
    memberChars_cons_append, lead_printedMember colon]
  show _ = _ :: (_ ++ following [] _ _)
  rw [following_printedMember colon]
  simp [inside]

/-- The printed fields of an object are members of which every one is left. -/
theorem edited_printed
    {writes : String → List Char → Prop}
    {level : Nat}
    {pairs : List (String × Json)}
    (known : List String)
    (loose : layout.Loose)
    (blank : Blank gap)
    (distinct : (pairs.map Prod.fst).Nodup)
    (written : ∀ pair ∈ pairs, writes pair.1 (chars layout level pair.2)) :
    Edited known writes (pairs.map Prod.fst) (pairs.map (printedMember layout gap level)) := by
  induction pairs with
  | nil => exact .nil
  | cons pair pairs ih =>
      obtain ⟨fresh, distinct⟩ := List.nodup_cons.mp distinct
      exact .left (spaced_printedMember loose blank level pair) (spells_escaped pair.1.toList)
        (written pair (List.mem_cons_self ..)) fresh
        (ih distinct fun other member => written other (List.mem_cons_of_mem _ member))

theorem Fields.names_write
    {types : List Type}
    (fields : Fields types)
    (row : Row types) :
    (fields.write row).map Prod.fst = fields.names := by
  induction fields with
  | nil => rfl
  | cons field rest ih => exact congrArg (field.name :: ·) (ih row.2)

/-- Of a record as it was printed every field is left. -/
theorem Fields.edited_write
    {types : List Type}
    {fields : Fields types}
    {row : Row types}
    {writes : String → List Char → Prop}
    {level : Nat}
    (loose : layout.Loose)
    (blank : Blank gap)
    (distinct : fields.names.Nodup)
    (written : ∀ pair ∈ fields.write row, writes pair.1 (chars layout level pair.2)) :
    Edited fields.names writes fields.names
      ((fields.write row).map (printedMember layout gap level)) := by
  rw [← fields.names_write row] at distinct
  have edited := edited_printed fields.names loose blank distinct written
  rwa [fields.names_write row] at edited

end

end SealedDirectory.Json
