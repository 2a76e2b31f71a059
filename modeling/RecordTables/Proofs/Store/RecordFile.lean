import RecordTables.Proofs.Format.Ron.ReadBack
import RecordTables.Proofs.NameMap
import RecordTables.Proofs.Scalar
import RecordTables.Store.RecordFile

/-!
# Reading back the file of a record

The names in the data of a record are plain ones (`Record.hasPlainNames_node`), so its text reads as
the tree of the data.  Each value is read back from its tree (`Value.ofRon?_node`), and so is the
record, all but its directory (`Record.ofText?_ron`).  Only the patterns that stand for no number are
read back as one of them (`Record.quieted`).
-/

namespace RecordTables

open Ron

/-! ### Plain names -/

theorem Scalar.hasPlainNames_node (s : Scalar) : s.node.HasPlainNames := by
  cases s <;> exact ⟨by decide, trivial⟩

theorem Node.allPlain_iff {items : List Node} :
    Node.AllPlain items ↔ ∀ x ∈ items, x.HasPlainNames := by
  induction items with
  | nil => exact ⟨fun _ _ h => (nomatch h), fun _ => trivial⟩
  | cons x items ih => rw [List.forall_mem_cons, Node.AllPlain, ih]

theorem Node.entriesPlain_iff {entries : List (String × Node)} :
    Node.EntriesPlain entries ↔ ∀ e ∈ entries, e.2.HasPlainNames := by
  induction entries with
  | nil => exact ⟨fun _ _ h => (nomatch h), fun _ => trivial⟩
  | cons e entries ih => rw [List.forall_mem_cons, Node.EntriesPlain, ih]

namespace Value

mutual

theorem hasPlainNames_node : (v : Value) → v.node.HasPlainNames
  | text _ | enum _ | duration _ | dateTime _ | noStruct => ⟨by decide, trivial⟩
  | scalar s => ⟨by decide, s.hasPlainNames_node⟩
  | ref target => ⟨by decide, by cases target <;> trivial⟩
  | asset key => ⟨by decide, by cases key <;> trivial⟩
  | struct fields => ⟨by decide, (by decide : IsName "fields"), allPlain_fieldNodes fields, trivial⟩
  | composite components =>
    ⟨by decide, Node.allPlain_iff.2 (List.forall_mem_map.2 fun s _ => s.hasPlainNames_node)⟩
  | list items => ⟨by decide, allPlain_itemNodes items⟩

theorem allPlain_itemNodes : (items : List Value) → Node.AllPlain (itemNodes items)
  | [] => trivial
  | v :: rest => ⟨hasPlainNames_node v, allPlain_itemNodes rest⟩

theorem allPlain_fieldNodes : (fields : List (String × Value)) → Node.AllPlain (fieldNodes fields)
  | [] => trivial
  | f :: rest => ⟨⟨trivial, hasPlainNames_node f.2, trivial⟩, allPlain_fieldNodes rest⟩

end

end Value

/-- The names in the data of a record are those of the format. -/
theorem Record.hasPlainNames_node (r : Record) : r.node.HasPlainNames := by
  refine ⟨(by decide : IsName "guid"), trivial, (by decide : IsName "identifier"), trivial,
    (by decide : IsName "content_hash"), ?_, (by decide : IsName "values"), ?_, trivial⟩
  · cases r.contentHash <;> trivial
  · exact Node.entriesPlain_iff.2 (List.forall_mem_map.2 fun e _ => Value.hasPlainNames_node e.2)

/-! ### Numbers -/

theorem int?_number (n : Int) : (Ron.number (toString n)).int? = some n := readInt?_toString n

theorem nat?_number (n : Nat) : (Ron.number (toString (n : Int))).nat? = some n := by
  show readNat? (toString n).toList = some n
  rw [toList_natText, readNat?_toDigits]

theorem bounded?_int {low high n : Int} (hlow : low < 0) (h : low ≤ n ∧ n ≤ high) :
    (Ron.number (toString n)).bounded? low high = some n := by
  unfold Ron.bounded?
  rw [if_pos hlow, int?_number]
  simpa [Option.filter] using h

theorem bounded?_nat {high : Int} {n : Nat} (h : (n : Int) ≤ high) :
    (Ron.number (toString (n : Int))).bounded? 0 high = some (n : Int) := by
  unfold Ron.bounded?
  rw [if_neg (Int.lt_irrefl 0), nat?_number]
  simpa [Option.filter] using h

theorem int64?_number (v : Int64) : (Ron.number (toString v.toInt)).int64? = some v := by
  have hlow := v.le_toInt
  have hhigh := v.toInt_lt
  unfold Ron.int64?
  rw [bounded?_int (by decide) (by omega), Option.map_some, Int64.ofInt_toInt]

/-- Every floating-point number is read back. -/
theorem float?_ofFloat (x : Number.Binary32) : (Ron.ofFloat x).float? = some x.quieted := by
  unfold Ron.ofFloat Number.Binary32.quieted
  by_cases hnan : x.isNaN = true
  · rw [if_pos hnan, if_pos hnan]
    rfl
  rw [if_neg hnan, if_neg hnan]
  by_cases hinf : x.isInfinite = true
  · -- an infinity is a word, or a literal of its own
    have hmagnitude : x.magnitude = Number.Binary32.infiniteMagnitude := by
      simpa [Number.Binary32.isInfinite] using hinf
    have hx := x.ofMagnitude_magnitude
    rw [hmagnitude] at hx
    cases hnegative : x.isNegative with
    | false =>
      rw [hnegative] at hx
      rw [if_pos (by rw [hinf]; rfl), ← hx]
      rfl
    | true =>
      have htext : floatText x = "-inf" := by
        unfold floatText Number.Binary32.text
        simp [hnan, hinf, hnegative]
      rw [hnegative] at hx
      rw [if_neg (by rw [hinf]; decide), htext, ← hx]
      rfl
  · have hfinite := Number.Binary32.magnitude_lt_iff.2
      ⟨Bool.eq_false_iff.2 hnan, Bool.eq_false_iff.2 hinf⟩
    rw [if_neg (by rw [Bool.eq_false_iff.2 hinf]; exact Bool.false_ne_true)]
    exact readFloat?_floatText hfinite

/-! ### Values -/

theorem Scalar.ofRon?_node (s : Scalar) : Scalar.ofRon? s.node.tree = some s.quieted := by
  -- all numbers are in the range of their kind
  have hsigned {n limit : Int} {f : Int → Scalar} (hlimit : 0 < limit)
      (h : -limit ≤ n ∧ n < limit) :
      ((Ron.number (toString n)).bounded? (-limit) (limit - 1)).map f = some (f n) := by
    rw [bounded?_int (by omega) (by omega), Option.map_some]
  have hunsigned {n : Nat} {limit : Int} {f : Nat → Scalar} (h : (n : Int) < limit) :
      (((Ron.number (toString (n : Int))).bounded? 0 (limit - 1)).map Int.toNat).map f =
        some (f n) := by
    rw [bounded?_nat (by omega), Option.map_some, Option.map_some, Int.toNat_natCast]
  cases s with
  | bool v => cases v <;> rfl
  | i8 v =>
    exact (hsigned (by decide) ⟨v.le_toInt, v.toInt_lt⟩).trans
      (congrArg (some ∘ i8) (Int8.ofInt_toInt v))
  | i16 v =>
    exact (hsigned (by decide) ⟨v.le_toInt, v.toInt_lt⟩).trans
      (congrArg (some ∘ i16) (Int16.ofInt_toInt v))
  | i32 v =>
    exact (hsigned (by decide) ⟨v.le_toInt, v.toInt_lt⟩).trans
      (congrArg (some ∘ i32) (Int32.ofInt_toInt v))
  | i64 v =>
    exact (hsigned (by decide) ⟨v.le_toInt, v.toInt_lt⟩).trans
      (congrArg (some ∘ i64) (Int64.ofInt_toInt v))
  | u8 v =>
    exact (hunsigned (by have := v.toNat_lt; omega)).trans
      (congrArg (some ∘ u8) (UInt8.ofNat_toNat))
  | u16 v =>
    exact (hunsigned (by have := v.toNat_lt; omega)).trans
      (congrArg (some ∘ u16) (UInt16.ofNat_toNat))
  | u32 v =>
    exact (hunsigned (by have := v.toNat_lt; omega)).trans
      (congrArg (some ∘ u32) (UInt32.ofNat_toNat))
  | u64 v =>
    exact (hunsigned (by have := v.toNat_lt; omega)).trans
      (congrArg (some ∘ u64) (UInt64.ofNat_toNat))
  | f32 v =>
    show (Ron.ofFloat v).float?.map Scalar.f32 = _
    rw [float?_ofFloat]
    rfl

theorem Node.trees_eq_map (items : List Node) : Node.trees items = items.map Node.tree := by
  induction items with
  | nil => rfl
  | cons x items ih => rw [Node.trees, ih, List.map_cons]

theorem Node.fieldTrees_eq_map (fields : List (String × Node)) :
    Node.fieldTrees fields = fields.map fun f => (f.1, f.2.tree) := by
  induction fields with
  | nil => rfl
  | cons f fields ih => rw [Node.fieldTrees, ih, List.map_cons]

/-- Elements that are read alone are read one after the other. -/
theorem mapM_map_eq_some {α β γ : Type} {read : β → Option γ} (write : α → β) {f : α → γ}
    (h : ∀ x, read (write x) = some (f x)) (xs : List α) :
    (xs.map write).mapM read = some (xs.map f) := by
  induction xs with
  | nil => rfl
  | cons x xs ih =>
    rw [List.map_cons, List.mapM_cons, h, ih]
    rfl

namespace Value

/-- A value without values in it is read by its kind. -/
theorem ofRon?_leaf {kind : String} (hlist : kind ≠ "List") {d : Ron}
    (hstruct : kind = "Struct" → d = .word "None") :
    ofRon? (.tuple (some kind) [d]) = leafOfRon? kind d := by
  rw [ofRon?.eq_def]
  split
  · next heq => cases heq; exact absurd rfl hlist
  · next heq => cases heq; cases hstruct rfl
  · next heq => cases heq; rfl
  · next hnone => exact absurd rfl (hnone kind d)

mutual

/-- Every value is read back. -/
theorem ofRon?_node : (v : Value) → ofRon? v.node.tree = some v.quieted
  | text _ => by
    show ofRon? (.tuple (some "Str") [_]) = _
    rw [ofRon?_leaf (by decide) (fun h => absurd h (by decide))]
    rfl
  | enum _ => by
    show ofRon? (.tuple (some "Enum") [_]) = _
    rw [ofRon?_leaf (by decide) (fun h => absurd h (by decide))]
    rfl
  | scalar s => by
    show ofRon? (.tuple (some "Scalar") [_]) = _
    rw [ofRon?_leaf (by decide) (fun h => absurd h (by decide))]
    show (Scalar.ofRon? s.node.tree).map scalar = _
    rw [s.ofRon?_node]
    rfl
  | duration ms => by
    show ofRon? (.tuple (some "Duration") [_]) = _
    rw [ofRon?_leaf (by decide) (fun h => absurd h (by decide))]
    show (Ron.number (toString ms.toInt)).int64?.map duration = _
    rw [int64?_number]
    rfl
  | dateTime ms => by
    show ofRon? (.tuple (some "DateTime") [_]) = _
    rw [ofRon?_leaf (by decide) (fun h => absurd h (by decide))]
    show (Ron.number (toString ms.toInt)).int64?.map dateTime = _
    rw [int64?_number]
    rfl
  | ref target => by
    show ofRon? (.tuple (some "Ref") [_]) = _
    rw [ofRon?_leaf (by decide) (fun h => absurd h (by decide))]
    cases target <;> rfl
  | noStruct => by
    show ofRon? (.tuple (some "Struct") [.word "None"]) = _
    rw [ofRon?_leaf (by decide) (fun _ => rfl)]
    rfl
  | asset key => by
    show ofRon? (.tuple (some "Asset") [_]) = _
    rw [ofRon?_leaf (by decide) (fun h => absurd h (by decide))]
    cases key <;> rfl
  | composite components => by
    show ofRon? (.tuple (some "Composite") [_]) = _
    rw [ofRon?_leaf (by decide) (fun h => absurd h (by decide))]
    show ((Node.trees (components.map Scalar.node)).mapM Scalar.ofRon?).map composite = _
    rw [Node.trees_eq_map, List.map_map,
      mapM_map_eq_some (Node.tree ∘ Scalar.node) Scalar.ofRon?_node]
    rfl
  | struct fields => by
    show ofRon? (.tuple (some "Struct") [.tuple (some "Some") [.record none
      [("fields", .list (Node.trees (fieldNodes fields)))]]]) = _
    rw [ofRon?, if_pos ⟨rfl, rfl⟩, fieldsOfParts?, pairsOfRon?_fieldNodes fields]
    rfl
  | list items => by
    show ofRon? (.tuple (some "List") [.list (Node.trees (itemNodes items))]) = _
    rw [ofRon?, itemsOfRon?_itemNodes items]
    rfl

theorem itemsOfRon?_itemNodes : (items : List Value) →
    itemsOfRon? (Node.trees (itemNodes items)) = some (quietedItems items)
  | [] => rfl
  | v :: rest => by
    rw [itemNodes, Node.trees, itemsOfRon?, ofRon?_node v, itemsOfRon?_itemNodes rest]
    rfl

theorem pairsOfRon?_fieldNodes : (fields : List (String × Value)) →
    pairsOfRon? (Node.trees (fieldNodes fields)) = some (quietedFields fields)
  | [] => rfl
  | f :: rest => by
    show pairsOfRon? (.tuple none [.text f.1, f.2.node.tree] ::
      Node.trees (fieldNodes rest)) = _
    rw [pairsOfRon?, ofRon?_node f.2, pairsOfRon?_fieldNodes rest]
    rfl

end

/-- The values of a record are read back. -/
theorem mapOfRon?_node (values : NameMap Value) :
    mapOfRon? (Node.map (values.entries.map fun e => (e.1, e.2.node))).tree =
      some (values.map quieted) := by
  show mapOfRon? (.map ((Node.fieldTrees (values.entries.map fun e => (e.1, e.2.node))).map
    fun e => (.text e.1, e.2))) = _
  rw [Node.fieldTrees_eq_map, List.map_map, List.map_map]
  have hnamed : Ron.namedEntries? (values.entries.map fun e => (.text e.1, e.2.node.tree)) =
      some (values.entries.map fun e => (e.1, e.2.node.tree)) := by
    unfold Ron.namedEntries?
    exact mapM_map_eq_some (fun e : String × Value => (Ron.text e.1, e.2.node.tree))
      (f := fun e => (e.1, e.2.node.tree)) (fun _ => rfl) _
  have hread : ((values.entries.map fun e => (e.1, e.2.node.tree)).mapM fun e =>
      (ofRon? e.2).map fun v => (e.1, v)) = some (values.map quieted).entries :=
    mapM_map_eq_some (fun e : String × Value => (e.1, e.2.node.tree))
      (f := fun e => (e.1, e.2.quieted)) (fun e => by rw [ofRon?_node]; rfl) _
  unfold mapOfRon?
  show ((Ron.namedEntries? (values.entries.map fun e => (.text e.1, e.2.node.tree))).bind
    fun named => (named.mapM fun e => (ofRon? e.2).map fun v => (e.1, v)).bind fun l =>
      some (NameMap.ofList l)) = _
  rw [hnamed, Option.bind_some, hread, Option.bind_some, NameMap.ofList_entries]

end Value

/-! ### Records -/

theorem optionalText?_ofOption (s : Option String) :
    (Node.ofOption (s.map .text)).tree.optionalText? = some s := by
  cases s <;> rfl

/-- The data of a record are read back as the record, all but its directory. -/
theorem Record.ofRon?_node (r : Record) :
    Record.ofRon? r.node.tree = some { r.quieted with directory := "" } := by
  have hparts : r.node.tree.parts? "StructuredRecord"
      ["guid", "identifier", "content_hash", "values"] =
        some [("guid", .text r.guid.text), ("identifier", .text r.identifier),
          ("content_hash", (Node.ofOption (r.contentHash.map .text)).tree),
          ("values", (Node.map (r.values.entries.map fun e => (e.1, e.2.node))).tree)] := rfl
  unfold Record.ofRon?
  rw [hparts]
  show (((Node.ofOption (r.contentHash.map .text)).tree.optionalText?).bind fun hash =>
    (Value.mapOfRon? (Node.map (r.values.entries.map fun e => (e.1, e.2.node))).tree).bind
      fun values => some (⟨⟨r.guid.text⟩, r.identifier, "", hash, values⟩ : Record)) = _
  rw [optionalText?_ofOption, Value.mapOfRon?_node]
  rfl

/-- **What is written into the file of a record** reads as the record. -/
theorem Record.ofText?_ron (r : Record) :
    (Ron.ofText? r.node.ron).bind Record.ofRon? = some { r.quieted with directory := "" } := by
  rw [Ron.ofText?_ron r.hasPlainNames_node]
  exact r.ofRon?_node

end RecordTables
