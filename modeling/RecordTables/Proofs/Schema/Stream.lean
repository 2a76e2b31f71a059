import Mathlib
import RecordTables.Proofs.Outcome
import RecordTables.Schema.Stream

/-!
# The stream of a schema is unambiguous

What enters a stream is told apart from what follows it (`Stream.Separates`): texts and lists stand
behind their length, and the bytes of a length are eight.  So two schemas with one stream have the
same types with the same effective properties, and the same enums (`Stream.schema_inj`).  The
condition is that lengths fit the eight bytes that they are written in (`Stream.SchemaFits`); they
do if the stream itself has fewer than `2 ^ 64` bytes (`Stream.schemaFits_of_length`).

The stream does not tell how many types there are.  Where they end is seen from the second text of
what follows, which is the word for a kind of types or the tag of a kind of scalars
(`Stream.separates_declared`).
-/

namespace RecordTables.Stream

open Schema

variable {α : Type} {fits : α → Prop} {pack : α → List UInt8}

/-- What the bytes of a stream stand for, and where they end, can be seen from the stream, if its
lengths fit. -/
def Separates (fits : α → Prop) (pack : α → List UInt8) : Prop :=
  ∀ {x y : α} {rest rest' : List UInt8}, fits x → fits y →
    pack x ++ rest = pack y ++ rest' → x = y ∧ rest = rest'

/-! ### Numbers and texts -/

theorem length_word (v : UInt64) : (word v).length = 8 := length_littleEndian 8 _

theorem word_inj {v v' : UInt64} (h : word v = word v') : v = v' := by
  have hvalue := congrArg ofLittleEndian h
  unfold word at hvalue
  rw [ofLittleEndian_littleEndian, ofLittleEndian_littleEndian] at hvalue
  have hlt : v.toNat < Nat.pow 256 8 := v.toNat_lt
  have hlt' : v'.toNat < Nat.pow 256 8 := v'.toNat_lt
  rw [Nat.mod_eq_of_lt hlt, Nat.mod_eq_of_lt hlt'] at hvalue
  exact UInt64.toNat_inj.1 hvalue

theorem separates_word : Separates (fun _ => True) word := by
  intro v v' rest rest' _ _ h
  obtain ⟨hword, hrest⟩ := List.append_inj h (by rw [length_word, length_word])
  exact ⟨word_inj hword, hrest⟩

/-- A count tells the number if the number fits. -/
theorem count_append_inj {m n : Nat} (hm : m < 2 ^ 64) (hn : n < 2 ^ 64) {rest rest' : List UInt8}
    (h : count m ++ rest = count n ++ rest') : m = n ∧ rest = rest' := by
  obtain ⟨hcount, hrest⟩ := List.append_inj h (by unfold count; rw [length_word, length_word])
  have hvalue := congrArg UInt64.toNat (word_inj hcount)
  rw [UInt64.toNat_ofNat_of_lt' hm, UInt64.toNat_ofNat_of_lt' hn] at hvalue
  exact ⟨hvalue, hrest⟩

/-- The number of the bytes of a text fits. -/
def TextFits (s : String) : Prop := (Text.utf8 s).length < 2 ^ 64

theorem length_text (s : String) : (text s).length = 8 + (Text.utf8 s).length := by
  unfold text count
  rw [List.length_append, length_word]

theorem textFits_of_length {s : String} (h : (text s).length < 2 ^ 64) : TextFits s := by
  rw [length_text] at h
  unfold TextFits
  omega

theorem text_ne_nil (s : String) : text s ≠ [] := by
  intro h
  have hlength := congrArg List.length h
  rw [length_text, List.length_nil] at hlength
  omega

theorem separates_text : Separates TextFits text := by
  intro s t rest rest' hs ht h
  unfold text at h
  rw [List.append_assoc, List.append_assoc] at h
  obtain ⟨hsize, hbytes⟩ := count_append_inj hs ht h
  obtain ⟨htext, hrest⟩ := List.append_inj hbytes hsize
  exact ⟨Text.utf8_inj htext, hrest⟩

/-! ### Lists -/

/-- The number of the elements of a list fits, and so do the elements. -/
structure ListFits (fits : α → Prop) (xs : List α) : Prop where
  length : xs.length < 2 ^ 64
  elements : ∀ x ∈ xs, fits x

theorem length_le_length_flatMap (hne : ∀ x, pack x ≠ []) (xs : List α) :
    xs.length ≤ (xs.flatMap pack).length := by
  induction xs with
  | nil => exact Nat.zero_le _
  | cons x xs ih =>
    rw [List.flatMap_cons, List.length_append, List.length_cons]
    have hpos := List.length_pos_of_ne_nil (hne x)
    omega

theorem length_pack_le_length_flatMap {x : α} {xs : List α} (hx : x ∈ xs) :
    (pack x).length ≤ (xs.flatMap pack).length := by
  rw [List.length_flatMap]
  exact List.single_le_sum (fun _ _ => Nat.zero_le _) _ (List.mem_map_of_mem hx)

theorem listFits_of_length (hfits : ∀ x, (pack x).length < 2 ^ 64 → fits x)
    (hne : ∀ x, pack x ≠ []) {xs : List α} (h : (xs.flatMap pack).length < 2 ^ 64) :
    ListFits fits xs where
  length := (length_le_length_flatMap hne xs).trans_lt h
  elements := fun x hx => hfits x ((length_pack_le_length_flatMap hx).trans_lt h)

/-- Lists of one length are told apart element by element. -/
theorem Separates.flatMap_inj (h : Separates fits pack) {xs ys : List α} {rest rest' : List UInt8}
    (hxy : xs.length = ys.length) (hxs : ∀ x ∈ xs, fits x) (hys : ∀ y ∈ ys, fits y)
    (heq : xs.flatMap pack ++ rest = ys.flatMap pack ++ rest') : xs = ys ∧ rest = rest' := by
  induction xs generalizing ys with
  | nil =>
    obtain rfl := List.eq_nil_of_length_eq_zero hxy.symm
    exact ⟨rfl, heq⟩
  | cons x xs ih =>
    obtain ⟨y, ys, rfl⟩ := List.exists_cons_of_length_eq_add_one hxy.symm
    rw [List.flatMap_cons, List.append_assoc, List.flatMap_cons, List.append_assoc] at heq
    rw [List.forall_mem_cons] at hxs hys
    obtain ⟨rfl, htail⟩ := h hxs.1 hys.1 heq
    obtain ⟨rfl, hrest⟩ := ih (Nat.succ.inj hxy) hxs.2 hys.2 htail
    exact ⟨rfl, hrest⟩

/-- A list behind its length is told apart. -/
theorem Separates.listed (h : Separates fits pack) :
    Separates (ListFits fits) fun xs : List α => count xs.length ++ xs.flatMap pack := by
  intro xs ys rest rest' hxs hys heq
  rw [List.append_assoc, List.append_assoc] at heq
  obtain ⟨hsize, heq⟩ := count_append_inj hxs.length hys.length heq
  exact h.flatMap_inj hsize hxs.elements hys.elements heq

/-- Lists that reach to the end of the stream are told apart element by element. -/
theorem Separates.flatMap_inj_of_ne_nil (h : Separates fits pack) (hne : ∀ x, pack x ≠ [])
    {xs ys : List α} (hxs : ∀ x ∈ xs, fits x) (hys : ∀ y ∈ ys, fits y)
    (heq : xs.flatMap pack = ys.flatMap pack) : xs = ys := by
  -- there is no count in front; that one list ends shows in the other stream being empty, too
  induction xs generalizing ys with
  | nil =>
    cases ys with
    | nil => rfl
    | cons y ys =>
      have hempty : pack y = [] := (List.append_eq_nil_iff.1 heq.symm).1
      exact absurd hempty (hne y)
  | cons x xs ih =>
    cases ys with
    | nil =>
      have hempty : pack x = [] := (List.append_eq_nil_iff.1 heq).1
      exact absurd hempty (hne x)
    | cons y ys =>
      rw [List.flatMap_cons, List.flatMap_cons] at heq
      rw [List.forall_mem_cons] at hxs hys
      obtain ⟨rfl, htail⟩ := h hxs.1 hys.1 heq
      rw [ih hxs.2 hys.2 htail]

/-- A pair of what is told apart is told apart. -/
theorem Separates.append {β : Type} {fits' : β → Prop} {pack' : β → List UInt8}
    (h : Separates fits pack) (h' : Separates fits' pack') :
    Separates (fun e : α × β => fits e.1 ∧ fits' e.2) fun e => pack e.1 ++ pack' e.2 := by
  rintro ⟨x, x'⟩ ⟨y, y'⟩ rest rest' hx hy heq
  rw [List.append_assoc, List.append_assoc] at heq
  obtain ⟨rfl, htail⟩ := h hx.1 hy.1 heq
  obtain ⟨rfl, hrest⟩ := h' hx.2 hy.2 htail
  exact ⟨rfl, hrest⟩

/-! ### Types and enums -/

/-- The texts of a property fit. -/
def PropertyFits (p : PropertyDeclaration) : Prop := TextFits p.name ∧ TextFits p.typeTag

/-- The name of a member fits. -/
def MemberFits (m : EnumMember) : Prop := TextFits m.name

theorem separates_property : Separates PropertyFits property := by
  rintro ⟨name, tag, isList⟩ ⟨name', tag', isList'⟩ rest rest' hfits hfits' h
  unfold property at h
  simp only [List.append_assoc] at h
  obtain ⟨rfl, htags⟩ := separates_text hfits.1 hfits'.1 h
  obtain ⟨rfl, hflags⟩ := separates_text hfits.2 hfits'.2 htags
  obtain ⟨hflag, hrest⟩ := List.cons.inj hflags
  refine ⟨?_, hrest⟩
  cases isList <;> cases isList' <;> first | rfl | cases hflag

theorem int64_toUInt64_inj {n n' : Int64} (h : n.toUInt64 = n'.toUInt64) : n = n' := by
  rw [← Int64.ofBitVec_toBitVec n, ← Int64.ofBitVec_toBitVec n']
  exact congrArg (fun v : UInt64 => Int64.ofBitVec v.toBitVec) h

theorem separates_member : Separates MemberFits member := by
  rintro ⟨name, value⟩ ⟨name', value'⟩ rest rest' hfits hfits' h
  unfold member at h
  rw [List.append_assoc, List.append_assoc] at h
  obtain ⟨rfl, hvalues⟩ := separates_text hfits hfits' h
  obtain ⟨hvalue, hrest⟩ := separates_word trivial trivial hvalues
  obtain rfl : value = value' := int64_toUInt64_inj hvalue
  exact ⟨rfl, hrest⟩

theorem property_ne_nil (p : PropertyDeclaration) : property p ≠ [] :=
  fun h => text_ne_nil _ (List.append_eq_nil_iff.1 (List.append_eq_nil_iff.1 h).1).1

theorem member_ne_nil (m : EnumMember) : member m ≠ [] :=
  fun h => text_ne_nil _ (List.append_eq_nil_iff.1 h).1

theorem propertyFits_of_length {p : PropertyDeclaration} (h : (property p).length < 2 ^ 64) :
    PropertyFits p := by
  unfold property at h
  rw [List.length_append, List.length_append] at h
  exact ⟨textFits_of_length (by omega), textFits_of_length (by omega)⟩

theorem memberFits_of_length {m : EnumMember} (h : (member m).length < 2 ^ 64) : MemberFits m := by
  unfold member at h
  rw [List.length_append] at h
  exact textFits_of_length (by omega)

theorem typeTag_inj {kind kind' : TypeKind} (h : kind.tag = kind'.tag) : kind = kind' := by
  revert h
  cases kind <;> cases kind' <;> decide

theorem scalarTag_inj {kind kind' : ScalarKind} (h : kind.tag = kind'.tag) : kind = kind' := by
  revert h
  cases kind <;> cases kind' <;> decide

/-- No type looks like an enum. -/
theorem typeTag_ne_scalarTag (kind : TypeKind) (repr : ScalarKind) : kind.tag ≠ repr.tag := by
  cases kind <;> cases repr <;> decide

theorem textFits_typeTag (kind : TypeKind) : TextFits kind.tag := by
  unfold TextFits
  cases kind <;> decide

theorem textFits_scalarTag (kind : ScalarKind) : TextFits kind.tag := by
  unfold TextFits
  cases kind <;> decide

/-- A list behind a name and a word, which is how both types and enums stand in a stream. -/
def block (pack : α → List UInt8) (name tag : String) (xs : List α) : List UInt8 :=
  text name ++ text tag ++ count xs.length ++ xs.flatMap pack

theorem block_ne_nil (pack : α → List UInt8) (name tag : String) (xs : List α) :
    block pack name tag xs ≠ [] := by
  intro h
  unfold block at h
  simp only [List.append_eq_nil_iff] at h
  exact text_ne_nil name h.1.1.1

theorem block_append (pack : α → List UInt8) (name tag : String) (xs : List α)
    (rest : List UInt8) : block pack name tag xs ++ rest =
      text name ++ (text tag ++ ((count xs.length ++ xs.flatMap pack) ++ rest)) := by
  unfold block
  simp only [List.append_assoc]

/-- What stands behind a name in a block of short length fits. -/
theorem fits_of_length_block (hfits : ∀ x, (pack x).length < 2 ^ 64 → fits x)
    (hne : ∀ x, pack x ≠ []) {name tag : String} {xs : List α}
    (h : (block pack name tag xs).length < 2 ^ 64) : TextFits name ∧ ListFits fits xs := by
  unfold block at h
  rw [List.length_append, List.length_append, List.length_append] at h
  exact ⟨textFits_of_length (by omega), listFits_of_length hfits hne (by omega)⟩

/-- The name and the word of a block are told apart, whatever stands behind them. -/
theorem block_tag_inj {β : Type} {pack : α → List UInt8} {pack' : β → List UInt8}
    {name name' tag tag' : String} {xs : List α} {ys : List β} {rest rest' : List UInt8}
    (hname : TextFits name) (hname' : TextFits name') (htag : TextFits tag) (htag' : TextFits tag')
    (h : block pack name tag xs ++ rest = block pack' name' tag' ys ++ rest') :
    name = name' ∧ tag = tag' ∧ (count xs.length ++ xs.flatMap pack) ++ rest =
      (count ys.length ++ ys.flatMap pack') ++ rest' := by
  rw [block_append, block_append] at h
  obtain ⟨rfl, htags⟩ := separates_text hname hname' h
  obtain ⟨rfl, hlists⟩ := separates_text htag htag' htags
  exact ⟨rfl, rfl, hlists⟩

/-! ### Schemas -/

/-- A type as it enters a stream: its name, its kind and its effective properties. -/
abbrev TypeSummary := String × TypeKind × List PropertyDeclaration

/-- What enters a stream of a type with its effective properties. -/
def summary (t : TypeDeclaration × List PropertyDeclaration) : TypeSummary :=
  (t.1.name, t.1.kind, t.2)

/-- What stands in a stream for a type or an enum. -/
def declared : TypeSummary ⊕ EnumDeclaration → List UInt8
  | .inl t => block property t.1 t.2.1.tag t.2.2
  | .inr e => block member e.name e.repr.tag e.members

/-- The lengths that the stream tells of a type or an enum fit. -/
def DeclaredFits : TypeSummary ⊕ EnumDeclaration → Prop
  | .inl t => TextFits t.1 ∧ ListFits PropertyFits t.2.2
  | .inr e => TextFits e.name ∧ ListFits MemberFits e.members

theorem declared_ne_nil (x : TypeSummary ⊕ EnumDeclaration) : declared x ≠ [] := by
  cases x with
  | inl t => exact block_ne_nil _ _ _ _
  | inr e => exact block_ne_nil _ _ _ _

theorem declaredFits_of_length {x : TypeSummary ⊕ EnumDeclaration}
    (h : (declared x).length < 2 ^ 64) : DeclaredFits x := by
  cases x with
  | inl t => exact fits_of_length_block (fun _ => propertyFits_of_length) property_ne_nil h
  | inr e => exact fits_of_length_block (fun _ => memberFits_of_length) member_ne_nil h

theorem separates_declared : Separates DeclaredFits declared := by
  rintro (t | e) (t' | e') rest rest' hfits hfits' h
  -- a type and a type, a type and an enum, an enum and a type, an enum and an enum
  · obtain ⟨hname, htag, hlists⟩ :=
      block_tag_inj hfits.1 hfits'.1 (textFits_typeTag _) (textFits_typeTag _) h
    obtain ⟨hproperties, hrest⟩ := separates_property.listed hfits.2 hfits'.2 hlists
    exact ⟨congrArg Sum.inl (Prod.ext hname (Prod.ext (typeTag_inj htag) hproperties)), hrest⟩
  · obtain ⟨-, htag, -⟩ :=
      block_tag_inj hfits.1 hfits'.1 (textFits_typeTag _) (textFits_scalarTag _) h
    exact absurd htag (typeTag_ne_scalarTag _ _)
  · obtain ⟨-, htag, -⟩ :=
      block_tag_inj hfits.1 hfits'.1 (textFits_scalarTag _) (textFits_typeTag _) h
    exact absurd htag.symm (typeTag_ne_scalarTag _ _)
  · obtain ⟨hname, htag, hlists⟩ :=
      block_tag_inj hfits.1 hfits'.1 (textFits_scalarTag _) (textFits_scalarTag _) h
    obtain ⟨hmembers, hrest⟩ := separates_member.listed hfits.2 hfits'.2 hlists
    refine ⟨congrArg Sum.inr ?_, hrest⟩
    obtain ⟨name, repr, members⟩ := e
    rw [EnumDeclaration.mk.injEq]
    exact ⟨hname, scalarTag_inj htag, hmembers⟩

/-- Types before enums are told apart. -/
theorem map_inl_append_map_inr_inj {types types' : List TypeSummary}
    {enums enums' : List EnumDeclaration}
    (h : types.map Sum.inl ++ enums.map Sum.inr = types'.map Sum.inl ++ enums'.map Sum.inr) :
    types = types' ∧ enums = enums' := by
  constructor
  · simpa [List.filterMap_map, Function.comp_def] using congrArg (List.filterMap Sum.getLeft?) h
  · simpa [List.filterMap_map, Function.comp_def] using congrArg (List.filterMap Sum.getRight?) h

/-- The lengths that the stream of a schema tells fit: those of the names and the tags, and the
numbers of the properties of a type and of the members of an enum. -/
structure SchemaFits (types : List (TypeDeclaration × List PropertyDeclaration))
    (enums : List EnumDeclaration) : Prop where
  types : ∀ t ∈ types, TextFits t.1.name ∧ ListFits PropertyFits t.2
  enums : ∀ e ∈ enums, TextFits e.name ∧ ListFits MemberFits e.members

variable {types types' : List (TypeDeclaration × List PropertyDeclaration)}
  {enums enums' : List EnumDeclaration}

theorem schema_eq (types : List (TypeDeclaration × List PropertyDeclaration))
    (enums : List EnumDeclaration) : schema types enums =
      salt ++ ((types.map summary).map Sum.inl ++ enums.map Sum.inr).flatMap declared := by
  unfold schema
  rw [List.flatMap_append, List.flatMap_map, List.flatMap_map, List.flatMap_map, List.append_assoc]
  rfl

theorem SchemaFits.declared (h : SchemaFits types enums) :
    ∀ x ∈ (types.map summary).map Sum.inl ++ enums.map Sum.inr, DeclaredFits x := by
  rw [List.map_map]
  exact List.forall_mem_append.2 ⟨List.forall_mem_map.2 h.types, List.forall_mem_map.2 h.enums⟩

/-- The lengths in a stream of fewer than `2 ^ 64` bytes fit. -/
theorem schemaFits_of_length (h : (schema types enums).length < 2 ^ 64) :
    SchemaFits types enums := by
  rw [schema_eq, List.length_append] at h
  have hall := (listFits_of_length (fun _ => declaredFits_of_length) declared_ne_nil
    ((Nat.le_add_left _ _).trans_lt h)).elements
  rw [List.map_map] at hall
  obtain ⟨htypes, henums⟩ := List.forall_mem_append.1 hall
  exact ⟨List.forall_mem_map.1 htypes, List.forall_mem_map.1 henums⟩

/-- **The stream tells the schema.** -/
theorem summary_eq_of_schema (hfits : SchemaFits types enums) (hfits' : SchemaFits types' enums')
    (h : schema types enums = schema types' enums') :
    types.map summary = types'.map summary ∧ enums = enums' := by
  rw [schema_eq, schema_eq] at h
  exact map_inl_append_map_inr_inj (separates_declared.flatMap_inj_of_ne_nil declared_ne_nil
    hfits.declared hfits'.declared (List.append_cancel_left h))

/-- The schema is told of nothing but the stream. -/
theorem schema_eq_of_summary (htypes : types.map summary = types'.map summary)
    (henums : enums = enums') : schema types enums = schema types' enums' := by
  rw [schema_eq, schema_eq, htypes, henums]

/-- A stream of fewer than `2 ^ 64` bytes tells the schema. -/
theorem schema_inj (hlength : (schema types enums).length < 2 ^ 64)
    (h : schema types enums = schema types' enums') :
    types.map summary = types'.map summary ∧ enums = enums' :=
  summary_eq_of_schema (schemaFits_of_length hlength) (schemaFits_of_length (h ▸ hlength)) h

end RecordTables.Stream
