import RecordTables.Script.Filter
import RecordTables.Script.Request

/-!
# Utilities of scripts

`utility?` finds a utility by its name.  Those that make, copy, move and take away files and
directories, and those that say something about names and files, are defined here.
-/

namespace RecordTables.Script

/-! ## Changing files -/

/-- Changes the files for one argument after the other, until one cannot be changed. -/
def Request.forEach (r : Request) (message : String → String)
    (change : FileTree → String → Option FileTree) : List String → FileTree → Reply
  | [], files => ⟨[], [], 0, files⟩
  | arg :: rest, files =>
    match change files arg with
    | some files => r.forEach message change rest files
    | none => { r.failed (message arg) with files }

/-- Makes directories. -/
def mkdir (r : Request) : Reply :=
  let (letters, names) := r.options
  r.forEach (fun name => "mkdir: cannot create directory '" ++ name ++ "': " ++
      if r.files.holds (r.path name) then "File exists" else "No such file or directory")
    (fun files name =>
      if letters.contains 'p' then files.makeDirectories? (r.path name)
      else files.makeDirectory? (r.path name)) names r.files

/-- Makes files that there are not. -/
def touch (r : Request) : Reply :=
  r.forEach (fun name => "touch: cannot touch '" ++ name ++ "': No such file or directory")
    (fun files name =>
      if files.holds (r.path name) then some files else files.write? (r.path name) [])
    r.options.2 r.files

/-- Takes files away, and with an option directories too. -/
def rm (r : Request) : Reply :=
  let (letters, names) := r.options
  r.forEach (fun name => "rm: cannot remove '" ++ name ++ "': " ++
      if r.files.holds (r.path name) then "Is a directory" else "No such file or directory")
    (fun files name =>
      let p := r.path name
      let found := (files.removeFile? p).or
        (if letters.contains 'r' ∨ letters.contains 'R' then files.removeDirectory? p else none)
      if letters.contains 'f' ∧ !files.holds p then some files else found) names r.files

/-- Takes empty directories away. -/
def rmdir (r : Request) : Reply :=
  r.forEach (fun name => "rmdir: failed to remove '" ++ name ++ "'")
    (fun files name =>
      if files.names? (r.path name) = some [] then files.removeDirectory? (r.path name) else none)
    r.options.2 r.files

/-- Where something of a name goes: into a directory of the target's name, or to the target itself.
-/
def Request.destination (r : Request) (source target : String) : Path :=
  let p := r.path target
  if r.files.hasDirectory p then p.join (r.path source).name else p

/-- Puts a tree at a path, onto a directory that may stand there. -/
def graft? (files : FileTree) (p : Path) (t : FileTree) : Option FileTree := do
  t.files.foldlM (fun files f => files.writeDeep? (f.1.foldl Path.join p) f.2)
    (← if t.isDirectory then files.makeDirectories? p else some files)

/-- Copies files, and with an option directories too. -/
def cp (r : Request) : Reply :=
  let (letters, names) := r.options
  let deep := letters.any fun c => c = 'r' ∨ c = 'R' ∨ c = 'a'
  match names.getLast? with
  | none => r.failed "cp: missing file operand"
  | some target =>
    r.forEach (fun name => "cp: cannot stat '" ++ name ++ "': No such file or directory")
      (fun files name =>
        match files.at? (r.path name) with
        | some (.file content) => files.write? (r.destination name target) content
        | some t => if deep then graft? files (r.destination name target) t else none
        | none => none) names.dropLast r.files

/-- Moves files and directories. -/
def mv (r : Request) : Reply :=
  let names := r.options.2
  match names.getLast? with
  | none => r.failed "mv: missing file operand"
  | some target =>
    r.forEach (fun name => "mv: cannot stat '" ++ name ++ "': No such file or directory")
      (fun files name => do
        let t ← files.at? (r.path name)
        let rest ← (files.removeFile? (r.path name)).or (files.removeDirectory? (r.path name))
        graft? rest (r.destination name target) t) names.dropLast r.files

/-- Writes what it reads, also into files. -/
def tee (r : Request) : Reply :=
  let (letters, names) := r.options
  let reply := r.forEach (absent "tee")
    (fun files name =>
      let old := if letters.contains 'a' then (files.read? (r.path name)).getD [] else []
      files.write? (r.path name) (old ++ r.input)) names r.files
  { reply with output := r.input }

/-- Changes what may be done with files, of which nothing is kept. -/
def chmod (r : Request) : Reply :=
  match r.args.tail.find? fun name => !r.files.holds (r.path name) with
  | some name => r.failed ("chmod: cannot access '" ++ name ++ "': No such file or directory")
  | none => r.ended 0

/-- The names in a directory. -/
def ls (r : Request) : Reply :=
  let name := r.options.2.head?.getD "."
  match r.files.at? (r.path name) with
  | some (.directory entries) =>
    let shown := (entries.map (·.1)).filter fun n => n.toList.head? ≠ some '.'
    r.succeed (Text.utf8 (String.join (shown.map (· ++ "\n"))))
  | some _ => r.succeed (Text.utf8 (name ++ "\n"))
  | none =>
    { r.failed ("ls: cannot access '" ++ name ++ "': No such file or directory") with status := 2 }

/-! ## Names, tests and all utilities -/

/-! ### Names of files -/

/-- The last part of a path, without an ending if one is given. -/
def basename (r : Request) : Reply :=
  let write (name : String) : Reply := r.succeed (Text.utf8 (name ++ "\n"))
  let nameOf (text : String) : String :=
    (Path.partsOf text).getLast?.getD
      (if text.isEmpty then "" else if Path.isAbsolute text then "/" else ".")
  match r.args with
  | [text] => write (nameOf text)
  | [text, ending] =>
    let name := nameOf text
    let cs := name.toList
    if cs.drop (cs.length - ending.length) = ending.toList ∧ name ≠ ending then
      write (String.ofList (cs.take (cs.length - ending.length)))
    else write name
  | _ => r.failed "basename: missing operand"

/-- A path without its last part. -/
def dirname (r : Request) : Reply :=
  match r.args with
  | [text] =>
    let parts := (Path.partsOf text).dropLast
    let shown := "/".intercalate parts
    r.succeed (Text.utf8 ((if Path.isAbsolute text then "/" ++ shown
      else if parts.isEmpty then "." else shown) ++ "\n"))
  | _ => r.failed "dirname: missing operand"

/-! ### Testing -/

/-- Whether a condition on texts, numbers and files holds; `none` for what is no condition. -/
def holds? (r : Request) : List String → Option Bool
  | [] => some false
  | "!" :: rest => (holds? r rest).map (!·)
  | [s] => some !s.isEmpty
  | ["-n", s] => some !s.isEmpty
  | ["-z", s] => some s.isEmpty
  | ["-e", p] => some (r.files.holds (r.path p))
  | ["-f", p] => some (r.files.hasFile (r.path p))
  | ["-d", p] => some (r.files.hasDirectory (r.path p))
  | ["-r", p] | ["-w", p] => some (r.files.holds (r.path p))
  | ["-x", p] => some (r.files.hasDirectory (r.path p))
  | ["-s", p] => some (((r.files.read? (r.path p)).getD []).length ≠ 0)
  | [a, "=", b] => some (a = b)
  | [a, "!=", b] => some (a ≠ b)
  | [a, relation, b] => do
    let a ← (Number.readInt64 a.toList).toOption
    let b ← (Number.readInt64 b.toList).toOption
    match relation with
    | "-eq" => some (a = b)
    | "-ne" => some (a ≠ b)
    | "-lt" => some (a < b)
    | "-le" => some (a ≤ b)
    | "-gt" => some (b < a)
    | "-ge" => some (b ≤ a)
    | _ => none
  | _ => none

/-- Whether all of some conditions hold. -/
def holdAll? (r : Request) (conditions : List (List String)) : Option Bool :=
  (conditions.mapM (holds? r)).map fun held => held.all id

/-- Ends well if its condition holds, which may be joined from others by `-a` and `-o`. -/
def test (r : Request) : Reply :=
  let answer : Option Bool :=
    if r.args.length ≤ 4 then holds? r r.args
    else ((Text.splitOn "-o" r.args).mapM fun c => holdAll? r (Text.splitOn "-a" c)).map fun held =>
      held.any id
  match answer with
  | some b => r.ended (if b then 0 else 1)
  | none => r.ended 2

/-- The test in square brackets. -/
def bracket (r : Request) : Reply :=
  if r.args.getLast? = some "]" then test { r with args := r.args.dropLast } else r.ended 2

/-! ### All utilities -/

/-- The utility of a name. -/
def utility? : String → Option (Request → Reply)
  | ":" | "true" => some fun r => r.ended 0
  | "false" => some fun r => r.ended 1
  | "echo" => some echo
  | "printf" => some printf
  | "basename" => some basename
  | "dirname" => some dirname
  | "cat" => some cat
  | "head" => some head
  | "tail" => some tail
  | "wc" => some wc
  | "tr" => some tr
  | "sort" => some sort
  | "grep" => some grep
  | "sed" => some sed
  | "cut" => some cut
  | "chmod" => some chmod
  | "seq" => some seq
  | "mkdir" => some mkdir
  | "touch" => some touch
  | "rm" => some rm
  | "rmdir" => some rmdir
  | "cp" => some cp
  | "mv" => some mv
  | "tee" => some tee
  | "ls" => some ls
  | "test" => some test
  | "[" => some bracket
  | _ => none

end RecordTables.Script
