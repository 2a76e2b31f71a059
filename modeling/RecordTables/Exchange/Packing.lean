import RecordTables.Container.Basic
import RecordTables.Text.Utf8

/-!
# Containers as bytes

The packing with which containers are exchanged.  A packed container starts with a mark.  A number is
laid down in groups of seven bits, the least significant first, each but the last marked by its
eighth bit, so there is no number that is too great; and whatever has a length starts with it.

A reader and the bytes of what it reads belong together if the reader takes exactly these bytes from
the front, whatever follows (`Unpack.Reads`).  Readers that follow each other then read bytes that
follow each other (`Reads.bind`), and there is one lemma for each part of a container.  They lead to
`Container.unpack?_pack`, the law of a packing.
-/

namespace RecordTables

/-! ### Writing -/

/-- The mark in front of a packed container. -/
def packingMark : List UInt8 := Text.utf8 "record tables\n"

/-- A number in groups of seven bits. -/
def packNumber (n : Nat) : List UInt8 :=
  if n < 128 then [UInt8.ofNat n] else UInt8.ofNat (128 + n % 128) :: packNumber (n / 128)
termination_by n
decreasing_by omega

/-- Bytes with their number in front. -/
def packBytes (bytes : List UInt8) : List UInt8 := packNumber bytes.length ++ bytes

/-- A text as its bytes. -/
def packText (s : String) : List UInt8 := packBytes (Text.utf8 s)

/-- A list with its length in front. -/
def packList {α : Type} (pack : α → List UInt8) (items : List α) : List UInt8 :=
  packNumber items.length ++ items.flatMap pack

namespace Container

/-- The number of a kind of elements. -/
def Element.code : Element → Nat
  | index => 0
  | scalar kind => ScalarKind.all.idxOf kind + 1

/-- A vector as bytes. -/
def Vector.pack (v : Vector) : List UInt8 :=
  packNumber v.element.code ++ packNumber v.length.toNat ++ packBytes v.bytes

/-- A table as bytes. -/
def Table.pack (t : Table) : List UInt8 :=
  packText t.name ++ packNumber t.rowSize.toNat ++ packNumber t.rowCount.toNat ++
    packBytes t.bytes ++ packList packText t.guids

/-- A container as bytes. -/
def pack (c : Container) : List UInt8 :=
  packingMark ++ packNumber c.header.magic.toNat ++ packNumber c.header.version.toNat ++
    packNumber c.header.fingerprint.value.toNat ++ packList packText c.strings ++
    packList Vector.pack c.vectors ++ packList Table.pack c.tables

end Container

/-! ### Reading -/

/-- Reads something from the front of some bytes. -/
abbrev Unpack (α : Type) := StateT (List UInt8) Option α

namespace Unpack

/-- A number of bytes. -/
def bytes (n : Nat) : Unpack (List UInt8) := fun bs =>
  if n ≤ bs.length then some (bs.take n, bs.drop n) else none

/-- A number, up to the first group without a mark. -/
def number : Unpack Nat
  | [] => none
  | b :: rest =>
    if b.toNat < 128 then some (b.toNat, rest)
    else (number rest).map fun (n, rest) => (b.toNat - 128 + 128 * n, rest)

/-- A number below a limit. -/
def below (limit : Nat) : Unpack Nat := do
  let n ← number
  if n < limit then return n else failure

/-- Bytes with their number in front. -/
def sized : Unpack (List UInt8) := do bytes (← number)

/-- A text. -/
def text : Unpack String := do
  match Text.ofUtf8? (← sized) with
  | some s => return s
  | none => failure

/-- As many items as are asked for. -/
def items {α : Type} (item : Unpack α) : (n : Nat) → Unpack (List α)
  | 0 => pure []
  | n + 1 => do return (← item) :: (← items item n)

/-- A list with its length in front.  Every item takes bytes, so a length that is greater than the
number of bytes that are left is no length. -/
def list {α : Type} (item : Unpack α) : Unpack (List α) := do
  let n ← number
  if n ≤ (← get).length then items item n else failure

/-- A number of 32 bits. -/
def word32 : Unpack UInt32 := UInt32.ofNat <$> below UInt32.size

/-- A number of 64 bits. -/
def word64 : Unpack UInt64 := UInt64.ofNat <$> below UInt64.size

/-- What the elements of a vector are. -/
def element : Unpack Container.Element := do
  match ← number with
  | 0 => return .index
  | n + 1 =>
    match ScalarKind.all[n]? with
    | some kind => return .scalar kind
    | none => failure

/-- A vector. -/
def vector : Unpack Container.Vector := do return ⟨← element, ← word32, ← sized⟩

/-- A table. -/
def table : Unpack Container.Table := do
  return ⟨← text, ← word32, ← word32, ← sized, ← list text⟩

/-- A container. -/
def container : Unpack Container := do
  if (← bytes packingMark.length) ≠ packingMark then failure
  let header : ContainerHeader := ⟨← word32, ← word32, ⟨← word64⟩⟩
  return ⟨header, ← list text, ← list vector, ← list table⟩

end Unpack

/-- The container of some bytes, if they are one and nothing else. -/
def Container.unpack? (bytes : List UInt8) : Option Container :=
  match Unpack.container bytes with
  | some (c, []) => some c
  | _ => none

/-! ### Reading back -/

namespace Unpack

variable {α β : Type} {u : Unpack α} {bs bs' : List UInt8} {x : α}

/-- The reader takes `bs` from the front of any bytes, and finds `x` in it. -/
def Reads (u : Unpack α) (bs : List UInt8) (x : α) : Prop := ∀ rest, u (bs ++ rest) = some (x, rest)

theorem reads_pure (x : α) : Reads (pure x) [] x := fun _ => rfl

theorem Reads.bind {next : α → Unpack β} {y : β} (h : Reads u bs x) (hnext : Reads (next x) bs' y) :
    Reads (u >>= next) (bs ++ bs') y := by
  intro rest
  show (u ((bs ++ bs') ++ rest)).bind (fun r => next r.1 r.2) = _
  rw [List.append_assoc, h, Option.bind_some]
  exact hnext rest

theorem Reads.map {f : α → β} (h : Reads u bs x) : Reads (f <$> u) bs (f x) := by
  rw [map_eq_pure_bind, ← List.append_nil bs]
  exact h.bind (reads_pure _)

/-! #### Numbers and texts -/

theorem reads_bytes (bs : List UInt8) : Reads (bytes bs.length) bs bs := by
  intro rest
  unfold bytes
  rw [if_pos (by rw [List.length_append]; omega), List.take_left, List.drop_left]

theorem reads_number (n : Nat) : Reads number (packNumber n) n := by
  intro rest
  -- The groups behind the first are those of a smaller number.
  induction n using Nat.strongRecOn with
  | ind n ih =>
    rw [packNumber]
    split
    · next hsmall =>
      have hbyte : (UInt8.ofNat n).toNat = n := UInt8.toNat_ofNat_of_lt' (by show n < 256; omega)
      rw [List.singleton_append, number, hbyte, if_pos hsmall]
    · next hgreat =>
      have hbyte : (UInt8.ofNat (128 + n % 128)).toNat = 128 + n % 128 :=
        UInt8.toNat_ofNat_of_lt' (by show 128 + n % 128 < 256; omega)
      have hvalue : 128 + n % 128 - 128 + 128 * (n / 128) = n := by omega
      rw [List.cons_append, number, hbyte, if_neg (by omega), ih (n / 128) (by omega)]
      show some (128 + n % 128 - 128 + 128 * (n / 128), rest) = _
      rw [hvalue]

theorem reads_below {n limit : Nat} (h : n < limit) : Reads (below limit) (packNumber n) n := by
  rw [below, ← List.append_nil (packNumber n)]
  apply (reads_number n).bind
  rw [if_pos h]
  exact reads_pure n

theorem reads_word32 (v : UInt32) : Reads word32 (packNumber v.toNat) v := by
  have h : Reads word32 (packNumber v.toNat) (UInt32.ofNat v.toNat) := (reads_below v.toNat_lt).map
  rwa [UInt32.ofNat_toNat] at h

theorem reads_word64 (v : UInt64) : Reads word64 (packNumber v.toNat) v := by
  have h : Reads word64 (packNumber v.toNat) (UInt64.ofNat v.toNat) := (reads_below v.toNat_lt).map
  rwa [UInt64.ofNat_toNat] at h

theorem reads_sized (bs : List UInt8) : Reads sized (packBytes bs) bs :=
  (reads_number bs.length).bind (reads_bytes bs)

theorem reads_text (s : String) : Reads text (packText s) s := by
  rw [text, ← List.append_nil (packText s)]
  apply (reads_sized (Text.utf8 s)).bind
  rw [Text.ofUtf8?_utf8]
  exact reads_pure s

/-! #### Lists -/

variable {pack : α → List UInt8}

theorem reads_items {xs : List α} (h : ∀ x ∈ xs, Reads u (pack x) x) :
    Reads (items u xs.length) (xs.flatMap pack) xs := by
  induction xs with
  | nil => exact reads_pure []
  | cons x xs ih =>
    rw [List.flatMap_cons, List.length_cons, items]
    have hothers := ih fun y hy => h y (List.mem_cons_of_mem _ hy)
    apply (h x List.mem_cons_self).bind
    rw [← List.append_nil (xs.flatMap pack)]
    exact hothers.bind (reads_pure _)

theorem length_le_flatMap {xs : List α} (h : ∀ x, pack x ≠ []) :
    xs.length ≤ (xs.flatMap pack).length := by
  induction xs with
  | nil => exact Nat.le_refl 0
  | cons x xs ih =>
    have hfirst := List.length_pos_iff.2 (h x)
    rw [List.flatMap_cons, List.length_append, List.length_cons]
    omega

/-- A list is read back if its items are.  That items take bytes keeps the length from being refused
as too great. -/
theorem reads_list (hne : ∀ x, pack x ≠ []) (h : ∀ x, Reads u (pack x) x) (xs : List α) :
    Reads (list u) (packList pack xs) xs := by
  apply (reads_number xs.length).bind
  intro rest
  have hle : xs.length ≤ (xs.flatMap pack).length := length_le_flatMap hne
  show (if xs.length ≤ (xs.flatMap pack ++ rest).length then items u xs.length
    else failure : Unpack (List α)) (xs.flatMap pack ++ rest) = _
  rw [if_pos (by rw [List.length_append]; omega)]
  exact reads_items (fun x _ => h x) rest

/-! #### The parts of a container -/

theorem packNumber_ne_nil (n : Nat) : packNumber n ≠ [] := by
  rw [packNumber]
  split <;> exact List.cons_ne_nil _ _

theorem packText_ne_nil (s : String) : packText s ≠ [] :=
  List.append_ne_nil_of_left_ne_nil (packNumber_ne_nil _) _

theorem vector_ne_nil (v : Container.Vector) : v.pack ≠ [] :=
  List.append_ne_nil_of_left_ne_nil
    (List.append_ne_nil_of_left_ne_nil (packNumber_ne_nil _) _) _

theorem table_ne_nil (t : Container.Table) : t.pack ≠ [] := by
  unfold Container.Table.pack
  simp only [List.append_assoc]
  exact List.append_ne_nil_of_left_ne_nil (packText_ne_nil t.name) _

theorem getElem?_idxOf_kind (kind : ScalarKind) :
    ScalarKind.all[ScalarKind.all.idxOf kind]? = some kind := by
  cases kind <;> rfl

theorem reads_element (e : Container.Element) : Reads element (packNumber e.code) e := by
  rw [element, ← List.append_nil (packNumber e.code)]
  apply (reads_number e.code).bind
  cases e with
  | index => exact reads_pure _
  | scalar kind =>
    dsimp only [Container.Element.code]
    rw [getElem?_idxOf_kind]
    exact reads_pure _

theorem reads_vector (v : Container.Vector) : Reads vector v.pack v := by
  unfold Container.Vector.pack vector
  rw [List.append_assoc]
  apply (reads_element v.element).bind
  apply (reads_word32 v.length).bind
  rw [← List.append_nil (packBytes v.bytes)]
  exact (reads_sized v.bytes).bind (reads_pure v)

theorem reads_table (t : Container.Table) : Reads table t.pack t := by
  unfold Container.Table.pack table
  simp only [List.append_assoc]
  apply (reads_text t.name).bind
  apply (reads_word32 t.rowSize).bind
  apply (reads_word32 t.rowCount).bind
  apply (reads_sized t.bytes).bind
  rw [← List.append_nil (packList packText t.guids)]
  exact (reads_list packText_ne_nil reads_text t.guids).bind (reads_pure t)

theorem reads_container (c : Container) : Reads container c.pack c := by
  unfold Container.pack container
  simp only [List.append_assoc]
  apply (reads_bytes packingMark).bind
  rw [if_neg (not_not_intro rfl)]
  apply (reads_word32 c.header.magic).bind
  apply (reads_word32 c.header.version).bind
  apply (reads_word64 c.header.fingerprint.value).bind
  apply (reads_list packText_ne_nil reads_text c.strings).bind
  apply (reads_list vector_ne_nil reads_vector c.vectors).bind
  rw [← List.append_nil (packList Container.Table.pack c.tables)]
  exact (reads_list table_ne_nil reads_table c.tables).bind (reads_pure c)

end Unpack

/-- A packed container is read back. -/
theorem Container.unpack?_pack (c : Container) : Container.unpack? c.pack = some c := by
  have hreads := Unpack.reads_container c []
  rw [List.append_nil] at hreads
  rw [unpack?, hreads]

/-- The packing with which containers are exchanged. -/
def Packing.plain : Packing := ⟨Container.pack, Container.unpack?, Container.unpack?_pack⟩

end RecordTables
