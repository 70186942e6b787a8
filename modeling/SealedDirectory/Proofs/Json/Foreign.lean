import SealedDirectory.Proofs.Json.Lexical
import SealedDirectory.Proofs.Text.Pieces

/-!
# Documents that are passed over

A value that nobody asks for may be written in any way that the format allows: with blanks
around every token, with escapes that stand for no character, with numbers of any size and
nested to any depth.  It is passed over up to what follows it.

The other direction is left open: the reader may pass over other texts as well.
-/

namespace SealedDirectory.Json.Reader

/-! ## Parts between brackets -/

/-- Characters up to the blanks behind them, and these blanks. -/
structure Part where
  lead : List Char
  after : List Char

def Part.chars (part : Part) : List Char :=
  part.lead ++ part.after

/-- Parts within brackets, with commas between them. -/
def enclosed
    (opening closing : Char)
    (parts : List Part)
    (blanks : List Char) :
    List Char :=
  opening :: ([','].intercalate (parts.map Part.chars) ++ (blanks ++ [closing]))

/-- What stands behind a part: its blanks, the parts that follow it, and the end. -/
def following
    (after : List Char)
    (parts : List Part)
    (tail : List Char) :
    List Char :=
  after ++ (parts.flatMap (fun part => ',' :: part.chars) ++ tail)

theorem following_cons
    (after : List Char)
    (part : Part)
    (parts : List Part)
    (tail : List Char) :
    following after (part :: parts) tail =
      after ++ ',' :: (part.lead ++ following part.after parts tail) := by
  simp [following, Part.chars]

section

variable
  {opening closing : Char}
  {parts : List Part}
  {after blanks : List Char}

theorem enclosed_nil_append
    (opening closing : Char)
    (blanks rest : List Char) :
    enclosed opening closing [] blanks ++ rest = opening :: (blanks ++ closing :: rest) := by
  simp [enclosed]

theorem enclosed_cons_append
    (opening closing : Char)
    (part : Part)
    (parts : List Part)
    (blanks rest : List Char) :
    enclosed opening closing (part :: parts) blanks ++ rest =
      opening :: (part.lead ++ following part.after parts (blanks ++ closing :: rest)) := by
  simp [enclosed, Text.intercalate_cons, following, Part.chars, List.flatMap_map]

theorem length_le_following
    (after : List Char)
    (parts : List Part)
    (tail : List Char) :
    parts.length + tail.length ≤ (following after parts tail).length := by
  induction parts generalizing after with
  | nil => simp [following]
  | cons part parts ih =>
      have others := ih part.after
      rw [following_cons]
      simp only [List.length_cons, List.length_append]
      omega

theorem length_lt_enclosed
    (opening closing : Char)
    (parts : List Part)
    (blanks : List Char) :
    parts.length < (enclosed opening closing parts blanks).length := by
  rw [← List.append_nil (enclosed opening closing parts blanks)]
  cases parts with
  | nil => simp [enclosed]
  | cons part parts =>
      have others := length_le_following part.after parts (blanks ++ [closing])
      rw [enclosed_cons_append]
      simp only [List.length_cons, List.length_append] at others ⊢
      omega

theorem length_lead_lt_enclosed
    {part : Part}
    (member : part ∈ parts)
    (opening closing : Char)
    (blanks : List Char) :
    part.lead.length + 1 < (enclosed opening closing parts blanks).length := by
  cases parts with
  | nil => cases member
  | cons first parts =>
      have written := congrArg List.length
        (enclosed_cons_append opening closing first parts blanks [])
      simp only [List.append_nil, following, List.length_cons, List.length_append] at written
      rcases List.mem_cons.mp member with rfl | member
      · omega
      · have within : ',' :: part.chars ∈ parts.map fun part => ',' :: part.chars :=
          List.mem_map_of_mem member
        have shorter := (List.sublist_flatten_of_mem within).length_le
        rw [← List.flatMap_def] at shorter
        simp only [Part.chars, List.length_cons, List.length_append] at shorter written
        omega

theorem delimited_following
    (blankAfter : Blank after)
    (blank : Blank blanks)
    (closes : closing = ']' ∨ closing = '\x7d')
    (parts : List Part)
    (rest : List Char) :
    Delimited (following after parts (blanks ++ closing :: rest)) := by
  cases parts with
  | nil =>
      have bothBlank : Blank (after ++ blanks) := List.forall_mem_append.mpr ⟨blankAfter, blank⟩
      show Delimited (after ++ (blanks ++ closing :: rest))
      rw [← List.append_assoc]
      exact delimited_blank bothBlank (.inr closes)
  | cons part parts =>
      rw [following_cons]
      exact delimited_blank blankAfter (.inl rfl)

/-- A reader passes a part over, up to the blanks behind it. -/
structure Part.Passed
    (next : Reader Unit)
    (part : Part) :
    Prop where
  after : Blank part.after
  lead : ∀ rest, Delimited rest → next.Yields (part.lead ++ rest) () rest

/-- The parts after the first one are passed over, and the closing bracket with them. -/
theorem yields_skipRest
    {next : Reader Unit}
    (isList : Bool)
    (passed : ∀ part ∈ parts, part.Passed next)
    (blankAfter : Blank after)
    (blank : Blank blanks)
    (rest : List Char)
    {fuel : Nat}
    (enough : parts.length < fuel) :
    (skipRest isList next fuel).Yields
      (following after parts (blanks ++ (if isList then ']' else '\x7d') :: rest)) () rest := by
  have closes : (if isList then ']' else '\x7d') = ']' ∨
      (if isList then ']' else '\x7d') = '\x7d' := by
    cases isList <;> decide
  -- The blanks are those behind the part before, so they change from part to part.
  induction parts generalizing after fuel with
  | nil =>
      obtain ⟨fuel, rfl⟩ := Nat.exists_eq_succ_of_ne_zero (Nat.ne_of_gt enough)
      have bothBlank : Blank (after ++ blanks) := List.forall_mem_append.mpr ⟨blankAfter, blank⟩
      show Yields _ (after ++ (blanks ++ _)) _ _
      rw [← List.append_assoc]
      cases isList <;> exact (yields_token bothBlank _ rfl).bind (yields_skip _ _)
  | cons part parts ih =>
      obtain ⟨fuel, rfl⟩ := Nat.exists_eq_succ_of_ne_zero (Nat.ne_of_gt (Nat.zero_lt_of_lt enough))
      obtain ⟨partAfter, reads⟩ := passed part (List.mem_cons_self ..)
      have delimited := delimited_following partAfter blank closes parts rest
      have others := ih (fun other member => passed other (List.mem_cons_of_mem _ member))
        partAfter (Nat.lt_of_succ_lt_succ enough)
      rw [following_cons]
      exact (yields_token blankAfter _ rfl).bind
        ((yields_skip _ _).bind ((reads _ delimited).bind others))

end

/-! ## Values that are passed over -/

/-- A value in a list, with the blanks before and behind it. -/
structure Item where
  before : List Char
  value : List Char
  after : List Char

/-- What stands around a value is blank. -/
structure Item.Spaced (item : Item) : Prop where
  before : Blank item.before
  after : Blank item.after

def Item.part (item : Item) : Part :=
  ⟨item.before ++ item.value, item.after⟩

/-- A value in an object, with its name and the blanks before and behind the name. -/
structure Member extends Item where
  front : List Char
  /-- The characters between the quotes of the name. -/
  name : List Char
  gap : List Char

/-- What stands around the name of a member and around its value is blank. -/
structure Member.Spaced (member : Member) : Prop extends member.toItem.Spaced where
  front : Blank member.front
  gap : Blank member.gap

/-- What stands between the name of a member and the blanks behind its value. -/
def Member.entry (member : Member) : List Char :=
  member.gap ++ ':' :: (member.before ++ member.value)

def Member.part (member : Member) : Part :=
  ⟨member.front ++ '"' :: (member.name ++ '"' :: member.entry), member.after⟩

theorem Member.lead_append
    (member : Member)
    (rest : List Char) :
    member.part.lead ++ rest =
      member.front ++ '"' :: (member.name ++ '"' :: (member.entry ++ rest)) := by
  simp [Member.part]

theorem Member.entry_append
    (member : Member)
    (rest : List Char) :
    member.entry ++ rest = member.gap ++ ':' :: (member.before ++ (member.value ++ rest)) := by
  simp [Member.entry]

def listChars (items : List Item) (blanks : List Char) : List Char :=
  enclosed '[' ']' (items.map Item.part) blanks

def objectChars (members : List Member) (blanks : List Char) : List Char :=
  enclosed '\x7b' '\x7d' (members.map Member.part) blanks

/-- A value in any form that the format allows. -/
inductive Phrase : List Char → Prop
  | null : Phrase ['n', 'u', 'l', 'l']
  | isTrue : Phrase ['t', 'r', 'u', 'e']
  | isFalse : Phrase ['f', 'a', 'l', 's', 'e']
  | number
      {chars : List Char}
      (isNumeral : IsNumeral chars) :
      Phrase chars
  | text
      {chars : List Char}
      (quoted : Quoted chars) :
      Phrase ('"' :: (chars ++ ['"']))
  | list
      {items : List Item}
      {blanks : List Char}
      (spaced : ∀ item ∈ items, item.Spaced)
      (phrases : ∀ item ∈ items, Phrase item.value)
      (blank : Blank blanks) :
      Phrase (listChars items blanks)
  | object
      {members : List Member}
      {blanks : List Char}
      (spaced : ∀ member ∈ members, member.Spaced)
      (quoted : ∀ member ∈ members, Quoted member.name)
      (phrases : ∀ member ∈ members, Phrase member.value)
      (blank : Blank blanks) :
      Phrase (objectChars members blanks)

/-- A value begins with a character that neither is a blank nor closes a list. -/
theorem Phrase.exists_cons
    {chars : List Char}
    (phrase : Phrase chars) :
    ∃ char others, chars = char :: others ∧ isSpace char = false ∧ char ≠ ']' := by
  cases phrase with
  | null => exact ⟨_, _, rfl, rfl, by decide⟩
  | isTrue => exact ⟨_, _, rfl, rfl, by decide⟩
  | isFalse => exact ⟨_, _, rfl, rfl, by decide⟩
  | number isNumeral =>
      obtain ⟨char, others, rfl, begins⟩ := isNumeral.exists_cons
      obtain ⟨solid, -, -, -, inside⟩ := solid_of_beginsNumber begins
      exact ⟨char, others, rfl, solid, inside⟩
  | text quoted => exact ⟨_, _, rfl, rfl, by decide⟩
  | list spaced phrases blank => exact ⟨_, _, rfl, rfl, by decide⟩
  | object spaced quoted phrases blank => exact ⟨_, _, rfl, rfl, by decide⟩

theorem yields_colon_blank
    {gap : List Char}
    (blank : Blank gap)
    (rest : List Char) :
    colon.Yields (gap ++ ':' :: rest) () rest :=
  (yields_token blank _ rfl).bind (yields_skip _ _)

/-- A reader passes a value over, whatever blanks stand before it. -/
def PassesOver
    (next : Reader Unit)
    (value : List Char) :
    Prop :=
  ∀ blanks rest, Blank blanks → Delimited rest → next.Yields (blanks ++ (value ++ rest)) () rest

section

variable {next : Reader Unit}

theorem Item.passed
    {item : Item}
    (spaced : item.Spaced)
    (passes : PassesOver next item.value) :
    item.part.Passed next where
  after := spaced.after
  lead := by
    intro rest delimited
    rw [Item.part, List.append_assoc]
    exact passes _ rest spaced.before delimited

/-- A field is passed over with its name, the colon and its value. -/
theorem Member.passed
    {member : Member}
    (spaced : member.Spaced)
    (quoted : Quoted member.name)
    (passes : PassesOver next member.value) :
    member.part.Passed (skipField next) where
  after := spaced.after
  lead := by
    intro rest delimited
    have shorter : member.name.length <
        (member.name ++ '"' :: (member.entry ++ rest)).length + 1 := by
      rw [List.length_append]
      omega
    have name := quoted.yields_skipQuoted (member.entry ++ rest) shorter
    have value := passes member.before rest spaced.before delimited
    rw [Member.entry_append] at name
    rw [Member.lead_append, Member.entry_append]
    apply (yields_token spaced.front _ rfl).bind
    apply (yields_skip '"' _).bind
    apply (yields_fuel _).bind
    exact name.bind ((yields_colon_blank spaced.gap _).bind value)

end

section

variable
  {items : List Item}
  {members : List Member}
  {within : List Char}
  {fuel : Nat}
  (blankWithin : Blank within)

include blankWithin

/-- A list is passed over if its items are. -/
theorem passesOver_list
    (spaced : ∀ item ∈ items, item.Spaced)
    (phrases : ∀ item ∈ items, Phrase item.value)
    (passes : ∀ item ∈ items, PassesOver (ignored fuel) item.value)
    (enough : (listChars items within).length ≤ fuel) :
    PassesOver (ignored (fuel + 1)) (listChars items within) := by
  intro blanks rest blank delimited
  have fewer := length_lt_enclosed '[' ']' (items.map Item.part) within
  rw [List.length_map] at fewer
  cases items with
  | nil =>
      rw [listChars, List.map_nil, enclosed_nil_append]
      apply (yields_token blank _ rfl).bind
      apply (yields_skip '[' _).bind
      exact (yields_token blankWithin _ rfl).bind (yields_skip ']' rest)
  | cons item items =>
      have passed : ∀ part ∈ items.map Item.part, part.Passed (ignored fuel) := by
        intro part isPart
        obtain ⟨other, isItem, rfl⟩ := List.mem_map.mp isPart
        have isItem := List.mem_cons_of_mem item isItem
        exact Item.passed (spaced other isItem) (passes other isItem)
      have isFirst := List.mem_cons_self (a := item) (l := items)
      have first := spaced item isFirst
      have fewerMore : (items.map Item.part).length < fuel := by
        rw [List.length_map]
        exact Nat.lt_of_succ_lt (Nat.lt_of_lt_of_le fewer enough)
      have others := yields_skipRest true passed first.after blankWithin rest fewerMore
      have reads := passes item isFirst [] _ blank_nil
        (delimited_following first.after blankWithin (.inl rfl) (items.map Item.part) rest)
      obtain ⟨char, chars, begins, solid, inside⟩ := (phrases item isFirst).exists_cons
      rw [listChars, List.map_cons, enclosed_cons_append, Item.part, List.append_assoc]
      rw [begins, List.nil_append, List.cons_append] at reads
      rw [begins, List.cons_append]
      apply (yields_token blank _ rfl).bind
      apply (yields_skip '[' _).bind
      apply (yields_token first.before .endOfList solid).bind
      rw [if_neg inside]
      exact reads.bind others

/-- An object is passed over if the values of its fields are. -/
theorem passesOver_object
    (spaced : ∀ member ∈ members, member.Spaced)
    (quoted : ∀ member ∈ members, Quoted member.name)
    (passes : ∀ member ∈ members, PassesOver (ignored fuel) member.value)
    (enough : (objectChars members within).length ≤ fuel) :
    PassesOver (ignored (fuel + 1)) (objectChars members within) := by
  intro blanks rest blank delimited
  have fewer := length_lt_enclosed '\x7b' '\x7d' (members.map Member.part) within
  rw [List.length_map] at fewer
  cases members with
  | nil =>
      rw [objectChars, List.map_nil, enclosed_nil_append]
      apply (yields_token blank _ rfl).bind
      apply (yields_skip '\x7b' _).bind
      exact (yields_token blankWithin _ rfl).bind (yields_skip '\x7d' rest)
  | cons member members =>
      have passed : ∀ part ∈ members.map Member.part, part.Passed (skipField (ignored fuel)) := by
        intro part isPart
        obtain ⟨other, isMember, rfl⟩ := List.mem_map.mp isPart
        have isMember := List.mem_cons_of_mem member isMember
        exact Member.passed (spaced other isMember) (quoted other isMember)
          (passes other isMember)
      have isFirst := List.mem_cons_self (a := member) (l := members)
      have first := spaced member isFirst
      have fewerMore : (members.map Member.part).length < fuel := by
        rw [List.length_map]
        exact Nat.lt_of_succ_lt (Nat.lt_of_lt_of_le fewer enough)
      have others : (skipRest false (skipField (ignored fuel)) fuel).Yields
          (following member.after (members.map Member.part) (within ++ '\x7d' :: rest)) () rest :=
        yields_skipRest false passed first.after blankWithin rest fewerMore
      -- The blanks before the first name are passed before the field is.
      have bare :
          Part.Passed (skipField (ignored fuel)) (Member.part { member with front := [] }) :=
        Member.passed { first with front := blank_nil } (quoted member isFirst)
          (passes member isFirst)
      have reads := bare.lead _
        (delimited_following first.after blankWithin (.inr rfl) (members.map Member.part) rest)
      rw [Member.lead_append, List.nil_append] at reads
      rw [objectChars, List.map_cons, enclosed_cons_append, Member.lead_append]
      apply (yields_token blank _ rfl).bind
      apply (yields_skip '\x7b' _).bind
      apply (yields_token first.front .endOfObject rfl).bind
      exact reads.bind others

end

/-- A value that nobody asks for is passed over up to what follows it. -/
theorem Phrase.passesOver
    {chars : List Char}
    (phrase : Phrase chars)
    {fuel : Nat}
    (enough : chars.length ≤ fuel) :
    PassesOver (ignored (fuel + 1)) chars := by
  induction phrase generalizing fuel with
  | null =>
      intro blanks rest blank delimited
      exact (yields_token blank _ rfl).bind ((yields_skip _ _).bind (yields_word _ rest))
  | isTrue =>
      intro blanks rest blank delimited
      exact (yields_token blank _ rfl).bind ((yields_skip _ _).bind (yields_word _ rest))
  | isFalse =>
      intro blanks rest blank delimited
      exact (yields_token blank _ rfl).bind ((yields_skip _ _).bind (yields_word _ rest))
  | number isNumeral =>
      intro blanks rest blank delimited
      obtain ⟨value, reads⟩ := isNumeral.yields_numeral .badNumber delimited
      obtain ⟨char, others, rfl, begins⟩ := isNumeral.exists_cons
      obtain ⟨solid, noNull, noTrue, noFalse, -⟩ := solid_of_beginsNumber begins
      apply (yields_token blank .endOfValue solid).bind
      simp only [noNull, noTrue, noFalse, begins, if_false, if_true]
      exact reads.bind (yields_pure _ _)
  | @text chars quoted =>
      intro blanks rest blank delimited
      have shorter : chars.length < fuel := by
        simp only [List.length_cons, List.length_append] at enough
        omega
      rw [List.cons_append, List.append_assoc]
      exact (yields_token blank _ rfl).bind
        ((yields_skip _ _).bind (quoted.yields_skipQuoted rest shorter))
  | @list items within spaced phrases blankWithin ih =>
      -- A level of nesting takes one unit of fuel, and an item is shorter than its list.
      apply passesOver_list blankWithin spaced phrases _ enough
      intro item isItem
      have isPart : item.part ∈ items.map Item.part := List.mem_map_of_mem isItem
      have shorter := length_lead_lt_enclosed isPart '[' ']' within
      simp only [listChars, Item.part, List.length_append] at shorter enough
      obtain ⟨fuel, rfl⟩ : ∃ fewer, fuel = fewer + 1 := ⟨fuel - 1, by omega⟩
      exact ih item isItem (by omega)
  | @object members within spaced quoted phrases blankWithin ih =>
      apply passesOver_object blankWithin spaced quoted _ enough
      intro member isMember
      have isPart : member.part ∈ members.map Member.part := List.mem_map_of_mem isMember
      have shorter := length_lead_lt_enclosed isPart '\x7b' '\x7d' within
      simp only [objectChars, Member.part, Member.entry, List.length_append, List.length_cons]
        at shorter enough
      obtain ⟨fuel, rfl⟩ : ∃ fewer, fuel = fewer + 1 := ⟨fuel - 1, by omega⟩
      exact ih member isMember (by omega)

end SealedDirectory.Json.Reader
