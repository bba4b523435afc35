import HostTree.Proofs.Json.Token
import HostTree.Proofs.Text.Utf8

/-!
JSON texts read as the data they stand for, with arrays and objects nested to any depth. The reader
takes one token at a time and knows nothing of the rows of this library. `decode?_object` says that
it reads a written object back.
-/

namespace HostTree

namespace Json

/-- What a JSON text stands for. The fields of an object keep their order. -/
inductive Datum where
  | scalar (value : Scalar)
  | array (items : List Datum)
  | object (fields : List (String × Datum))

/-- A container around a value that is being read. What stands in front of the value is in
reverse. -/
inductive Around where
  | array (items : List Datum)
  /-- The value belongs to a name. -/
  | object (fields : List (String × Datum)) (name : String)

/-- How far the reading of tokens has come. The containers around, the innermost first, come
last. -/
inductive Reader where
  | beforeValue (around : List Around)
  /-- Behind the mark that opens an array. -/
  | inArray (around : List Around)
  /-- Behind the mark that opens an object. -/
  | inObject (around : List Around)
  | beforeName (fields : List (String × Datum)) (around : List Around)
  | afterName (fields : List (String × Datum)) (name : String) (around : List Around)
  | afterItem (items : List Datum) (around : List Around)
  | afterField (fields : List (String × Datum)) (around : List Around)
  /-- Behind the whole text. -/
  | done (datum : Datum)

namespace Reader

/-- Put a datum where it belongs. -/
def place (datum : Datum) : List Around → Reader
  | [] => .done datum
  | .array items :: around => .afterItem (datum :: items) around
  | .object fields name :: around => .afterField ((name, datum) :: fields) around

/-- Read the first token of a value. -/
def begin? (around : List Around) : Token → Option Reader
  | .scalar value => some (place (.scalar value) around)
  | .opening .array => some (.inArray around)
  | .opening .object => some (.inObject around)
  | _ => none

/-- Read the name of a field. -/
def name? (fields : List (String × Datum)) (around : List Around) : Token → Option Reader
  | .scalar (.string name) => some (.afterName fields name around)
  | _ => none

/-- Read one token. -/
def step? : Reader → Token → Option Reader
  | .beforeValue around, token => begin? around token
  | .inArray around, .closing .array => some (place (.array []) around)
  | .inArray around, token => begin? (.array [] :: around) token
  | .inObject around, .closing .object => some (place (.object []) around)
  | .inObject around, token => name? [] around token
  | .beforeName fields around, token => name? fields around token
  | .afterName fields name around, .colon => some (.beforeValue (.object fields name :: around))
  | .afterItem items around, .comma => some (.beforeValue (.array items :: around))
  | .afterItem items around, .closing .array => some (place (.array items.reverse) around)
  | .afterField fields around, .comma => some (.beforeName fields around)
  | .afterField fields around, .closing .object => some (place (.object fields.reverse) around)
  | _, _ => none

/-- Read tokens to the end. -/
def run? (reader : Reader) : List Token → Option Reader
  | [] => some reader
  | token :: rest =>
    match reader.step? token with
    | none => none
    | some next => run? next rest

/-- The datum, if the whole text has been read. -/
def datum? : Reader → Option Datum
  | .done datum => some datum
  | _ => none

end Reader

/-- The datum that tokens make up. -/
def build? (tokens : List Token) : Option Datum :=
  (Reader.run? (.beforeValue []) tokens).bind Reader.datum?

/-- The datum that a text stands for. -/
def parse? (text : List Char) : Option Datum :=
  (tokens? text).bind build?

/-- The text that octets encode, and the datum that it stands for. -/
def decode? (octets : Octets) : Option Datum :=
  (Utf8.decode? octets).bind fun text => parse? text.toList

namespace Reader

theorem run?_of_step {reader next : Reader} {token : Token} (hStep : reader.step? token = some next)
    (rest : List Token) : reader.run? (token :: rest) = next.run? rest := by
  simp [run?, hStep]

/-- The tokens of a field put it behind the fields in front of it. -/
theorem run?_fieldTokens (fields : List (String × Datum)) (around : List Around) (name : String)
    (value : Value) (rest : List Token) :
    run? (.beforeName fields around) (fieldTokens name value ++ rest) =
      run? (.afterField ((name, .scalar value.scalar) :: fields) around) rest := by
  have hName : step? (.beforeName fields around) (.scalar (.string name)) =
      some (.afterName fields name around) := rfl
  have hColon : step? (.afterName fields name around) .colon =
      some (.beforeValue (.object fields name :: around)) := rfl
  have hValue : step? (.beforeValue (.object fields name :: around)) (.scalar value.scalar) =
      some (.afterField ((name, .scalar value.scalar) :: fields) around) := rfl
  exact (run?_of_step hName _).trans ((run?_of_step hColon _).trans (run?_of_step hValue rest))

end Reader

/-- The datum of a written field. -/
def fieldDatum (field : String × Value) : String × Datum :=
  (field.1, .scalar field.2.scalar)

theorem run?_otherTokens (before : List (String × Datum)) (fields : List (String × Value)) :
    Reader.run? (.afterField before []) (otherTokens fields) =
      some (.done (.object (before.reverse ++ fields.map fieldDatum))) := by
  induction fields generalizing before with
  | nil =>
      rw [List.map_nil, List.append_nil]
      rfl
  | cons field fields ih =>
      obtain ⟨name, value⟩ := field
      have hComma : Reader.step? (.afterField before []) .comma = some (.beforeName before []) :=
        rfl
      rw [otherTokens, List.cons_append, Reader.run?_of_step hComma, Reader.run?_fieldTokens, ih]
      simp [fieldDatum]

theorem build?_objectTokens (fields : List (String × Value)) :
    build? (objectTokens fields) = some (.object (fields.map fieldDatum)) := by
  have hOpen : Reader.step? (.beforeValue []) (.opening .object) = some (.inObject []) := rfl
  cases fields with
  | nil => rfl
  | cons field fields =>
      obtain ⟨name, value⟩ := field
      -- The first field is read as if it stood behind a comma.
      have hFirst : Reader.run? (.inObject []) (fieldTokens name value ++ otherTokens fields) =
          Reader.run? (.beforeName [] []) (fieldTokens name value ++ otherTokens fields) := rfl
      rw [build?, objectTokens, List.cons_append, Reader.run?_of_step hOpen, hFirst,
        Reader.run?_fieldTokens, run?_otherTokens]
      rfl

/-- A written object is read back, with its fields in their order. -/
theorem decode?_object (fields : List (String × Value)) :
    decode? (Octets.ofChars (object fields)) = some (.object (fields.map fieldDatum)) := by
  have hText : Octets.ofChars (object fields) =
      Octets.ofString (String.ofList (object fields)) := by
    rw [Octets.ofString, String.toList_ofList]
  rw [decode?, hText, Utf8.decode?_ofString, Option.bind_some, String.toList_ofList, parse?,
    tokens?_object, Option.bind_some, build?_objectTokens]

example : parse? "[ true, [], \x7b\"a\\u00e9\\ud83d\\ude00\" : null\x7d ]\n".toList =
    some (.array [.scalar (.truth true), .array [],
      .object [(String.ofList ['a', 'é', '😀'], .scalar .null)]]) := by
  have hTokens : tokens? "[ true, [], \x7b\"a\\u00e9\\ud83d\\ude00\" : null\x7d ]\n".toList =
      some [.opening .array, .scalar (.truth true), .comma, .opening .array, .closing .array,
        .comma, .opening .object, .scalar (.string (String.ofList ['a', 'é', '😀'])), .colon,
        .scalar .null, .closing .object, .closing .array] := by
    decide +kernel
  rw [parse?, hTokens]
  rfl

/-- Commas at an end, needless zeros, lone surrogates and a second value are no JSON. -/
example : ["[1,]", "01", "\"\\ud83d\"", "[] []"].map (fun text => (parse? text.toList).isSome) =
    [false, false, false, false] := by
  decide +kernel

end Json

end HostTree
