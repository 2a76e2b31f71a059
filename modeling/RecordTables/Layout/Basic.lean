import RecordTables.Fingerprint
import RecordTables.Scalar.Basic
import RecordTables.Schema.Declaration
import RecordTables.Schema.Error

/-!
# The layout of tables

Every record type and every sub-structure has a table of fixed-size rows.  A row holds its fields in
the order in which they were defined, without gaps: a single scalar in its own bytes, anything else
as an index of four bytes into strings, vectors or rows.

A layout is assembled by opening tables and appending fields to them, in any order.  A table stands
where it was first mentioned, and a second field of one name in one table is refused and changes
nothing.

A schema compiler takes the layout as a text: a namespace, the enums, the tables, and a root table
that holds the fingerprint and a vector for every record table.  Each block stands behind an empty
line.
-/

namespace RecordTables

open Schema (EnumDeclaration SchemaError)

/-- Bytes of an index into strings, vectors or rows. -/
def indexWidth : Nat := 4

/-- The index that stands for nothing. -/
def nullIndex : UInt32 := 0xFFFFFFFF

/-- What one element of a field is. -/
inductive FieldKind where
  | scalar (kind : ScalarKind)
  | string
  /-- The number of a row of another table. -/
  | row (table : String)
  deriving DecidableEq, Repr, Inhabited

/-- The type of a field in a rendered schema. -/
def FieldKind.idlName : FieldKind → String
  | scalar kind => kind.tag
  | string => "string"
  | row table => table

/-- A field of a table. -/
structure Field where
  table : String
  name : String
  kind : FieldKind
  isArray : Bool
  deriving DecidableEq, Repr, Inhabited

/-- Bytes of a field in a row. -/
def Field.slotWidth (f : Field) : Nat :=
  match f.kind, f.isArray with
  | .scalar kind, false => kind.width
  | _, _ => indexWidth

/-- A table: its name, whether it holds records, and its fields in order. -/
structure TableLayout where
  name : String
  isRecord : Bool
  fields : List Field
  deriving DecidableEq, Repr, Inhabited

namespace TableLayout

/-- Bytes that some fields take together. -/
def totalWidth (fields : List Field) : Nat := fields.foldr (fun f n => f.slotWidth + n) 0

theorem totalWidth_append (fs gs : List Field) :
    totalWidth (fs ++ gs) = totalWidth fs + totalWidth gs := by
  induction fs with
  | nil => simp [totalWidth]
  | cons f rest ih => simp only [totalWidth, List.cons_append, List.foldr_cons] at ih ⊢; omega

/-- Bytes of a row. -/
def rowSize (t : TableLayout) : Nat := totalWidth t.fields

/-- Where the field number `i` starts in a row. -/
def offset (t : TableLayout) (i : Nat) : Nat := totalWidth (t.fields.take i)

/-- The number of the first field of a name. -/
def fieldIndex? (t : TableLayout) (name : String) : Option Nat :=
  t.fields.findIdx? (fun f => f.name == name)

/-- Start and end of the field number `i` in a row. -/
def slot? (t : TableLayout) (i : Nat) : Option (Nat × Nat) :=
  t.fields[i]?.map fun f => (t.offset i, t.offset i + f.slotWidth)

/-- A slot ends where the next one starts. -/
theorem offset_succ {t : TableLayout} {i : Nat} {f : Field} (h : t.fields[i]? = some f) :
    t.offset (i + 1) = t.offset i + f.slotWidth := by
  rw [offset, List.take_add_one, h, totalWidth_append]
  simp [offset, totalWidth]

end TableLayout

/-- The layout of all tables, in the order of their definition. -/
structure Layout where
  tables : List TableLayout
  deriving DecidableEq, Repr, Inhabited

namespace Layout

/-- The first table of a name. -/
def table? (l : Layout) (name : String) : Option TableLayout :=
  l.tables.find? (fun t => t.name == name)

/-- Every field, table by table. -/
def fields (l : Layout) : List Field := l.tables.flatMap (·.fields)

/-! ## Assembling a layout -/

/-- Opens a table at the end, unless it is open already. -/
def openTable (l : Layout) (name : String) (isRecord : Bool) : Layout :=
  if l.tables.any (fun t => t.name == name) then l
  else ⟨l.tables ++ [⟨name, isRecord, []⟩]⟩

/-- Whether a table has a field of a name. -/
def hasField (l : Layout) (table name : String) : Bool :=
  l.fields.any (fun f => f.table == table && f.name == name)

/-- Puts a field at the end of every table of its table's name. -/
def pushField (l : Layout) (field : Field) : Layout :=
  ⟨l.tables.map fun t =>
    if t.name == field.table then { t with fields := t.fields ++ [field] } else t⟩

/-- Appends a field to its table, opening the table if need be. -/
def appendField (l : Layout) (field : Field) : Except SchemaError Layout :=
  if l.hasField field.table field.name then .error (.duplicateField field.table field.name)
  else .ok ((l.openTable field.table false).pushField field)

/-- A step of an assembly. -/
inductive Step where
  | table (name : String) (isRecord : Bool)
  | field (field : Field)
  deriving DecidableEq, Repr

/-- Takes one step; a refused field leaves the layout as it was. -/
def take (l : Layout) : Step → Except SchemaError Unit × Layout
  | .table name isRecord => (.ok (), l.openTable name isRecord)
  | .field field =>
    match l.appendField field with
    | .ok l' => (.ok (), l')
    | .error e => (.error e, l)

/-- Takes steps in order: what came of each, and the layout in the end. -/
def assemble : Layout → List Step → List (Except SchemaError Unit) × Layout
  | l, [] => ([], l)
  | l, s :: rest =>
    let (r, l) := l.take s
    let (rs, l) := assemble l rest
    (r :: rs, l)

/-! ## The interface description -/

/-- A block with a head and one indented line for each entry. -/
def block (head : String) (lines : List String) : List String :=
  ["", head ++ " \x7b"] ++ lines.map ("  " ++ ·) ++ ["\x7d"]

/-- The block of an enum. -/
def enumBlock (e : EnumDeclaration) : List String :=
  block s!"enum {e.name} : {e.repr.tag}"
    (e.members.map fun m => s!"{m.name} = {m.value.toInt},")

/-- The line of a field. -/
def fieldLine (f : Field) : String :=
  if f.isArray then s!"{f.name}:[{f.kind.idlName}];" else s!"{f.name}:{f.kind.idlName};"

/-- The block of a table. -/
def tableBlock (t : TableLayout) : List String :=
  block s!"table {t.name}" (t.fields.map fieldLine)

/-- The block of the root table. -/
def rootBlock (l : Layout) (root : String) : List String :=
  block s!"table {root}" ("fingerprint:string;" ::
    (l.tables.filter (·.isRecord)).map (fun t => s!"{t.name}:[{t.name}];"))

/-- The interface description of a layout. -/
def idl (l : Layout) (namespaceName : String) (enums : List EnumDeclaration)
    (fingerprint : Fingerprint) : String :=
  let root := namespaceName ++ "Root"
  let lines :=
    ["// Generated. Do not edit.", s!"// fingerprint: {fingerprint.text}", "",
      s!"namespace {namespaceName};"] ++
    enums.flatMap enumBlock ++ l.tables.flatMap tableBlock ++ l.rootBlock root ++
    ["", s!"root_type {root};"]
  String.join (lines.map (· ++ "\n"))

end Layout

end RecordTables
