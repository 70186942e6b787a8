import SealedDirectory.Proofs.Json.Documents

/-!
# Reading printed values back

A layout may put blanks before a token and nothing else.  Under every such layout, on
one line or over several, a codec reads back what it has printed if the codecs that it
is composed of do.  This is said here for texts with a form, for associations and for
records; a record is read back whatever its fields are, provided that their names differ.
-/

namespace SealedDirectory.Json

open Reader

/-! ## Layouts -/

def Blank (chars : List Char) : Prop :=
  ∀ char ∈ chars, isSpace char = true

theorem blank_nil : Blank [] :=
  fun _ member => absurd member List.not_mem_nil

/-- A layout puts only blanks at the start of a line and after a colon. -/
structure Layout.Loose (layout : Layout) : Prop where
  lineBreak : ∀ level, Blank (layout.lineBreak level)
  colon : ∃ gap, Blank gap ∧ layout.colon = ':' :: gap

theorem Layout.loose_pretty : Layout.pretty.Loose where
  lineBreak := by
    intro level char member
    rcases List.mem_cons.mp member with rfl | member
    · rfl
    · rw [List.eq_of_mem_replicate member]
      rfl
  colon := ⟨[' '], by simp [Blank, isSpace], rfl⟩

theorem Layout.loose_compact : Layout.compact.Loose where
  lineBreak := fun _ => blank_nil
  colon := ⟨[], blank_nil, rfl⟩

/-- What stands between a value and the next token ends a number, too. -/
theorem delimited_blank
    {blanks rest : List Char}
    {char : Char}
    (blank : Blank blanks)
    (ends : char = ',' ∨ char = ']' ∨ char = '\x7d') :
    Delimited (blanks ++ char :: rest) := by
  intro head isHead
  cases blanks with
  | nil =>
      cases isHead
      rcases ends with rfl | rfl | rfl <;> decide
  | cons space others =>
      cases isHead
      have space := blank head (List.mem_cons_self ..)
      simp only [isSpace, Bool.or_eq_true, beq_iff_eq] at space
      rcases space with ((rfl | rfl) | rfl) | rfl <;> decide

namespace Reader

/-! ## Tokens after blanks -/

section

variable
  {blanks gap rest : List Char}
  (blank : Blank blanks)

include blank

theorem yields_token
    {char : Char}
    (atEnd : Cause)
    (solid : isSpace char = false) :
    (peekToken atEnd).Yields (blanks ++ char :: rest) char (char :: rest) := by
  have passes : (takeWhile isSpace).Yields (blanks ++ char :: rest) blanks (char :: rest) :=
    yields_takeWhile blanks blank (by simpa using solid)
  have looks : peekToken?.Yields (blanks ++ char :: rest) (some char) (char :: rest) :=
    passes.bind (yields_peek? _)
  exact looks.bind (yields_pure _ _)

theorem yields_firstField (name : String) :
    (hasField true).Yields (blanks ++ (textChars name ++ rest)) true (textChars name ++ rest) := by
  rw [textChars_append]
  exact (yields_token blank _ rfl).bind (yields_pure _ _)

theorem yields_nextField (name : String) :
    (hasField false).Yields (',' :: (blanks ++ (textChars name ++ rest))) true
      (textChars name ++ rest) := by
  rw [textChars_append]
  exact (yields_peekToken _ rfl).bind ((yields_skip _ _).bind
    ((yields_token blank _ rfl).bind (yields_pure _ _)))

theorem yields_lastField (isFirst : Bool) :
    (hasField isFirst).Yields (blanks ++ '\x7d' :: rest) false ('\x7d' :: rest) :=
  (yields_token blank _ rfl).bind (yields_pure _ _)

end

/-! ## Objects -/

/-- The characters between the braces of an object that begins at a level. -/
def inside
    (layout : Layout)
    (level : Nat) :
    List (String × Json) → List Char
  | [] => []
  | (name, value) :: more =>
      layout.lineBreak (level + 1) ++ (textChars name ++ (layout.colon ++
        (chars layout (level + 1) value ++ (moreFields layout (level + 1) more ++
          layout.lineBreak level))))

theorem chars_object
    (layout : Layout)
    (level : Nat)
    (pairs : List (String × Json))
    (rest : List Char) :
    chars layout level (.object pairs) ++ rest =
      '\x7b' :: (inside layout level pairs ++ '\x7d' :: rest) := by
  cases pairs with
  | nil => simp [chars, inside]
  | cons first more => simp [chars, inside]

theorem length_le_moreFields
    (layout : Layout)
    (level : Nat)
    (pairs : List (String × Json)) :
    pairs.length ≤ (moreFields layout level pairs).length := by
  induction pairs with
  | nil => exact Nat.zero_le _
  | cons pair more ih =>
      simp only [moreFields, List.length_cons, List.length_append]
      omega

theorem length_le_inside
    (layout : Layout)
    (level : Nat)
    (pairs : List (String × Json)) :
    pairs.length ≤ (inside layout level pairs).length := by
  cases pairs with
  | nil => exact Nat.zero_le _
  | cons pair more =>
      have shorter := length_le_moreFields layout (level + 1) more
      simp only [inside, textChars, List.cons_append, List.length_cons, List.length_append]
      omega

/--
What is printed for fields after their names takes a reader, field by field, from one
state to another.
-/
inductive ReadsFields
    {σ : Type}
    (layout : Layout)
    (step : String → σ → Reader σ) :
    List (String × Json) → σ → σ → Prop
  | nil (state : σ) :
      ReadsFields layout step [] state state
  | cons
      {name : String}
      {value : Json}
      {more : List (String × Json)}
      {state next last : σ}
      (reads : ∀ level rest, Delimited rest →
        (step name state).Yields (layout.colon ++ (chars layout level value ++ rest)) next rest)
      (others : ReadsFields layout step more next last) :
      ReadsFields layout step ((name, value) :: more) state last

section

variable
  {σ : Type}
  {layout : Layout}
  {step : String → σ → Reader σ}
  {pairs : List (String × Json)}
  {start last : σ}

/-- Reads the name of a field and then what follows it. -/
abbrev named
    (step : String → σ → Reader σ)
    (state : σ) :
    Reader σ :=
  name >>= fun name => step name state

theorem delimited_moreFields
    (loose : layout.Loose)
    (more : List (String × Json))
    (level outer : Nat)
    (rest : List Char) :
    Delimited (moreFields layout level more ++ (layout.lineBreak outer ++ '\x7d' :: rest)) := by
  cases more with
  | nil => exact delimited_blank (loose.lineBreak outer) (.inr (.inr rfl))
  | cons pair more => exact delimited_blank blank_nil (.inl rfl)

/-- The fields after the first one are read, up to the closing brace. -/
theorem ReadsFields.yields_more
    (loose : layout.Loose)
    (read : ReadsFields layout step pairs start last)
    (level outer : Nat)
    (rest : List Char)
    {fuel : Nat}
    (enough : pairs.length < fuel) :
    (fields (named step) false fuel start).Yields
      (moreFields layout level pairs ++ (layout.lineBreak outer ++ '\x7d' :: rest)) last
      ('\x7d' :: rest) := by
  induction read generalizing fuel with
  | nil state =>
      obtain ⟨fuel, rfl⟩ := Nat.exists_eq_succ_of_ne_zero (Nat.ne_of_gt enough)
      exact (yields_lastField (loose.lineBreak outer) false).fields_nil
  | @cons name value more state next last reads others ih =>
      obtain ⟨fuel, rfl⟩ := Nat.exists_eq_succ_of_ne_zero (Nat.ne_of_gt (Nat.zero_lt_of_lt enough))
      have field := reads level _ (delimited_moreFields loose more level outer rest)
      simp only [moreFields, List.cons_append, List.append_assoc]
      exact (yields_nextField (loose.lineBreak level) name).fields_cons
        ((yields_name name _).bind field) (ih (Nat.lt_of_succ_lt_succ enough))

/-- The fields between the braces of an object are read, up to the closing brace. -/
theorem ReadsFields.yields_fields
    (loose : layout.Loose)
    (read : ReadsFields layout step pairs start last)
    (level : Nat)
    (rest : List Char)
    {fuel : Nat}
    (enough : pairs.length < fuel) :
    (fields (named step) true fuel start).Yields
      (inside layout level pairs ++ '\x7d' :: rest) last ('\x7d' :: rest) := by
  obtain ⟨fuel, rfl⟩ := Nat.exists_eq_succ_of_ne_zero (Nat.ne_of_gt (Nat.zero_lt_of_lt enough))
  cases read with
  | nil => exact (yields_lastField blank_nil true).fields_nil
  | @cons name value more _ next _ reads others =>
      have field := reads (level + 1) _ (delimited_moreFields loose more (level + 1) level rest)
      have fewer := Nat.lt_of_succ_lt_succ enough
      simp only [inside, List.append_assoc]
      exact (yields_firstField (loose.lineBreak (level + 1)) name).fields_cons
        ((yields_name name _).bind field) (others.yields_more loose (level + 1) level rest fewer)

/-- What takes one kind of state from one to the next does so where that state is a part. -/
theorem ReadsFields.lift
    {τ : Type}
    {whole : String → τ → Reader τ}
    (read : ReadsFields layout step pairs start last)
    (lift : σ → τ)
    (lifts : ∀ pair ∈ pairs, ∀ state next chars rest,
      (step pair.1 state).Yields chars next rest →
        (whole pair.1 (lift state)).Yields chars (lift next) rest) :
    ReadsFields layout whole pairs (lift start) (lift last) := by
  induction read with
  | nil state => exact .nil _
  | cons reads others ih =>
      apply ReadsFields.cons
      · intro level rest delimited
        exact lifts _ (List.mem_cons_self ..) _ _ _ _ (reads level rest delimited)
      · exact ih fun pair member => lifts pair (List.mem_cons_of_mem _ member)

end

end Reader

/-! ## Codecs -/

/-- After blanks, and before what does not belong to it, a printed value is read back. -/
def Codec.ReadsBack
    {α : Type}
    (codec : Codec α)
    (layout : Layout)
    (depth : Nat)
    (value : α) :
    Prop :=
  ∀ level blanks rest, Blank blanks → Delimited rest →
    (codec.read depth).Yields
      (blanks ++ (chars layout level (codec.write value) ++ rest)) value rest

namespace Codec

variable
  {α σ : Type}
  {layout : Layout}
  {depth : Nat}

/-- A whole text is read back. -/
theorem ReadsBack.decode
    {codec : Codec α}
    {value : α}
    (back : codec.ReadsBack layout depthLimit value) :
    codec.decode (String.ofList (chars layout 0 (codec.write value))) = .ok value := by
  apply onText_eq_ok
  rw [String.toList_ofList]
  have reads := back 0 [] [] blank_nil (by simp [Delimited])
  rwa [List.append_nil, List.nil_append] at reads

/-- After a colon a value is read back and handed on. -/
theorem ReadsBack.yields_colon
    {codec : Codec α}
    {value : α}
    (loose : layout.Loose)
    (back : codec.ReadsBack layout depth value)
    (use : α → σ)
    (level : Nat)
    {rest : List Char}
    (delimited : Delimited rest) :
    Yields
      (do
        colon
        return use (← codec.read depth))
      (layout.colon ++ (chars layout level (codec.write value) ++ rest)) (use value) rest := by
  obtain ⟨gap, blank, begins⟩ := loose.colon
  rw [begins]
  exact (Reader.yields_colon _).bind
    ((back level gap rest blank delimited).bind (yields_pure _ _))

theorem readsBack_textForm
    {expected : String}
    {write : α → String}
    {parse : String → Except String α}
    {value : α}
    (accepted : parse (write value) = .ok value) :
    (textForm expected write parse).ReadsBack layout depth value := by
  intro level blanks rest blank delimited
  show Yields _ (blanks ++ (textChars (write value) ++ rest)) _ _
  rw [textChars_append]
  apply (yields_token blank .endOfValue rfl).bind
  rw [if_pos rfl, ← textChars_append]
  apply (yields_name _ _).bind
  rw [accepted]
  exact yields_pure _ _

/-! ### Associations -/

section

variable
  {κ : Type}
  (codec : Codec α)
  (writeName : κ → String)
  (parseName : String → Except String κ)
  (insert : κ → α → σ → σ)

/-- Reads what follows the name of an association into the ones before it. -/
def readEntry
    (depth : Nat)
    (name : String)
    (held : σ) :
    Reader σ := do
  match parseName name with
  | .error message => refuse (.refused message)
  | .ok name =>
      colon
      return insert name (← codec.read depth) held

variable
  {codec writeName parseName}

theorem readsFields_readEntry
    (loose : layout.Loose)
    (entries : List (κ × α))
    (names : ∀ entry ∈ entries, parseName (writeName entry.1) = .ok entry.1)
    (values : ∀ entry ∈ entries, codec.ReadsBack layout depth entry.2)
    (held : σ) :
    ReadsFields layout (readEntry codec parseName insert depth)
      (entries.map fun entry => (writeName entry.1, codec.write entry.2)) held
      (entries.foldl (fun held entry => insert entry.1 entry.2 held) held) := by
  induction entries generalizing held with
  | nil => exact .nil _
  | cons entry entries ih =>
      have known := names entry (List.mem_cons_self ..)
      have back := values entry (List.mem_cons_self ..)
      have others := ih (fun other member => names other (List.mem_cons_of_mem _ member))
        (fun other member => values other (List.mem_cons_of_mem _ member))
        (insert entry.1 entry.2 held)
      apply ReadsFields.cons _ others
      intro level rest delimited
      rw [readEntry, known]
      exact back.yields_colon loose (insert entry.1 · held) level delimited

variable
  {insert}

/-- Associations are read back if inserting them one after the other gives them all. -/
theorem readsBack_assoc
    {empty held : σ}
    {toList : σ → List (κ × α)}
    (loose : layout.Loose)
    (names : ∀ entry ∈ toList held, parseName (writeName entry.1) = .ok entry.1)
    (values : ∀ entry ∈ toList held, codec.ReadsBack layout (depth + 1) entry.2)
    (rebuilt :
      (toList held).foldl (fun held entry => insert entry.1 entry.2 held) empty = held) :
    (assoc codec writeName parseName empty insert toList).ReadsBack layout (depth + 2) held := by
  intro level blanks rest blank delimited
  have read := readsFields_readEntry insert loose (toList held) names values empty
  rw [rebuilt] at read
  have shorter := length_le_inside layout level
    ((toList held).map fun entry => (writeName entry.1, codec.write entry.2))
  show Yields _ (blanks ++ (chars layout level (.object
    ((toList held).map fun entry => (writeName entry.1, codec.write entry.2))) ++ rest)) _ _
  rw [chars_object]
  apply (yields_token blank .endOfValue rfl).bind
  rw [if_pos rfl]
  apply (yields_skip _ _).bind
  refine Yields.closing ?_ (yields_closeObject rest)
  apply (yields_fuel _).bind
  apply read.yields_fields loose level rest
  rw [List.length_append]
  omega

end

end Codec

/-! ### Records -/

namespace Fields

variable
  {types : List Type}
  {layout : Layout}
  {depth : Nat}

def names : {types : List Type} → Fields types → List String
  | _, .nil => []
  | _, .cons field rest => field.name :: rest.names

/-- Every slot is filled with the value of a row. -/
def filled : {types : List Type} → Fields types → Row types → Slots types
  | _, .nil, _ => ()
  | _, .cons _ rest, (value, values) => (some value, rest.filled values)

/-- The codec of every field reads back the value that a row has for it. -/
def ReadsBack
    (layout : Layout)
    (depth : Nat) :
    {types : List Type} → Fields types → Row types → Prop
  | _, .nil, _ => True
  | _, .cons field rest, (value, values) =>
      field.codec.ReadsBack layout depth value ∧ rest.ReadsBack layout depth values

theorem complete_filled
    (fields : Fields types)
    (row : Row types) :
    fields.complete (fields.filled row) = .ok row := by
  induction fields with
  | nil => rfl
  | cons field rest ih =>
      obtain ⟨value, values⟩ := row
      show (do return (value, ← rest.complete (rest.filled values))) = _
      rw [ih values]
      rfl

theorem mem_names_of_mem_write
    (fields : Fields types)
    (row : Row types)
    {pair : String × Json}
    (member : pair ∈ fields.write row) :
    pair.1 ∈ fields.names := by
  induction fields with
  | nil => exact absurd member List.not_mem_nil
  | cons field rest ih =>
      rcases List.mem_cons.mp member with rfl | member
      · exact List.mem_cons_self ..
      · exact List.mem_cons_of_mem _ (ih _ member)

theorem readNamed_same
    {α : Type}
    (field : Field α)
    (rest : Fields types)
    (slots : Slots types) :
    (cons field rest).readNamed depth field.name (none, slots) =
      (do
        colon
        return (some (← field.codec.read depth), slots)) :=
  if_pos rfl

/-- A field of another name leaves the first slot as it is. -/
theorem readNamed_other
    {α : Type}
    {name : String}
    {field : Field α}
    (other : name ≠ field.name)
    (rest : Fields types)
    (slot : Option α)
    (slots : Slots types) :
    (cons field rest).readNamed depth name (slot, slots) =
      (do return (slot, ← rest.readNamed depth name slots)) :=
  if_neg other

/-- The printed fields fill one slot after the other. -/
theorem readsFields_readNamed
    (loose : layout.Loose)
    (fields : Fields types)
    (distinct : fields.names.Nodup)
    (row : Row types)
    (back : fields.ReadsBack layout depth row) :
    ReadsFields layout (fun name slots => fields.readNamed depth name slots)
      (fields.write row) fields.unread (fields.filled row) := by
  induction fields with
  | nil => exact .nil _
  | cons field rest ih =>
      obtain ⟨value, values⟩ := row
      obtain ⟨fresh, distinct⟩ := List.nodup_cons.mp distinct
      have others := ih distinct values back.2
      have first (level : Nat) (after : List Char) (delimited : Delimited after) :
          ((cons field rest).readNamed depth field.name (none, rest.unread)).Yields
            (layout.colon ++ (chars layout level (field.codec.write value) ++ after))
            (some value, rest.unread) after := by
        rw [readNamed_same]
        exact back.1.yields_colon loose (fun value => (some value, rest.unread)) level delimited
      apply ReadsFields.cons first
      -- The fields that follow have other names, so the filled slot is passed by.
      apply others.lift (fun slots => (some value, slots))
      intro pair member state next chars after reads
      have other : pair.1 ≠ field.name := by
        rintro same
        exact fresh (same ▸ rest.mem_names_of_mem_write values member)
      rw [readNamed_other other]
      exact reads.bind (yields_pure _ _)

end Fields

/-- A record is read back if its fields differ in name and are read back. -/
theorem Codec.readsBack_record
    {α : Type}
    {types : List Type}
    {layout : Layout}
    {depth : Nat}
    {typeName : String}
    {fields : Fields types}
    {ofRow : Row types → α}
    {toRow : α → Row types}
    {value : α}
    (loose : layout.Loose)
    (distinct : fields.names.Nodup)
    (back : fields.ReadsBack layout (depth + 1) (toRow value))
    (rebuilt : ofRow (toRow value) = value) :
    (Codec.record typeName fields ofRow toRow).ReadsBack layout (depth + 2) value := by
  intro level blanks rest blank delimited
  have read := fields.readsFields_readNamed loose distinct (toRow value) back
  have shorter := length_le_inside layout level (fields.write (toRow value))
  show Yields _ (blanks ++ (chars layout level (.object _) ++ rest)) _ _
  rw [chars_object]
  apply (yields_token blank .endOfValue rfl).bind
  rw [if_neg (by decide), if_pos rfl]
  apply (yields_skip _ _).bind
  refine Yields.closing ?_ (yields_closeObject rest)
  apply (yields_fuel _).bind
  apply (read.yields_fields loose level rest _).bind
  · rw [fields.complete_filled]
    show (pure (ofRow (toRow value)) : Reader α).Yields _ _ _
    rw [rebuilt]
    exact yields_pure _ _
  · rw [List.length_append]
    omega

end SealedDirectory.Json
