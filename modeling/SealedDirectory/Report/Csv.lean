/-!
# Comma-separated records

A record is a line of fields with commas between them.  A field that contains a
comma, a quote or the end of a line is put between quotes, and its quotes are
doubled; every other field stands as it is.

The reader is the inverse: it takes a text apart into records of fields.
-/

namespace SealedDirectory.Csv

/-- Whether a character forces quotes around its field. -/
def needsQuotes (char : Char) : Bool :=
  char == ',' || char == '"' || char == '\n' || char == '\r'

def quotedChar (char : Char) : List Char :=
  if char = '"' then ['"', '"'] else [char]

def field (chars : List Char) : List Char :=
  if chars.any needsQuotes then '"' :: chars.flatMap quotedChar ++ ['"'] else chars

/-- The fields of a record with commas between them. -/
def fields : List (List Char) → List Char
  | [] => []
  | [last] => field last
  | first :: rest => field first ++ ',' :: fields rest

/-- A record with the end of its line. -/
def record (row : List (List Char)) : List Char :=
  fields row ++ ['\n']

def write (rows : List (List (List Char))) : String :=
  String.ofList (rows.flatMap record)

/-- Where a reader stands: before a field, in a plain or quoted one, or after a quote in it. -/
inductive State where
  | start
  | plain
  | quoted
  /-- After a quote between quotes, which ends the field unless another one follows. -/
  | closing
  deriving DecidableEq, Repr

/--
Reads records.  The accumulators hold the field and the record being read, both in
reverse.  A quote inside a plain field, or something between a closing quote and the
next comma, is refused.
-/
def readFrom (state : State) (current : List Char) (row : List (List Char)) :
    List Char → Option (List (List (List Char)))
  | [] =>
      match state, row with
      | .start, [] => some []
      | .quoted, _ => none
      | _, _ => some [(current.reverse :: row).reverse]
  | char :: rest =>
      match state with
      | .quoted =>
          if char = '"' then readFrom .closing current row rest
          else readFrom .quoted (char :: current) row rest
      | _ =>
          if char = ',' then readFrom .start [] (current.reverse :: row) rest
          else if char = '\n' then
            (readFrom .start [] [] rest).map ((current.reverse :: row).reverse :: ·)
          else if char = '"' then
            match state with
            | .start => readFrom .quoted current row rest
            | .closing => readFrom .quoted (char :: current) row rest
            | _ => none
          else if state = .closing then none
          else readFrom .plain (char :: current) row rest

def read (text : String) : Option (List (List (List Char))) :=
  readFrom .start [] [] text.toList

end SealedDirectory.Csv
