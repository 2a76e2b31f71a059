import RecordTables.Proofs.Cell.Known
import RecordTables.Proofs.Cell.Leaf
import RecordTables.Proofs.Cell.ReadBack
import RecordTables.Proofs.Container.Values

/-!
# What cells are read as

`Context.Reads` describes the values that reading gives for an arrangement: a sub-structure has the
declared fields in their order and no others, a list has the elements that were cut apart, and every
leaf is what some text reads as (`Context.reads_of_decode`).  Such a value is its own canonical form
(`Context.Reads.canonical`), so when it is written again, and its leaves are legible, its components
are read as itself (`Context.Reads.readsBack`).  And it is well typed, as long as the references that
cells are read with name records that there are (`Context.wellTyped_of_decode`).
-/

namespace RecordTables

open Schema

variable {r : Registry}

/-! ### Arrangements -/

/-- No two fields of a sub-structure have one name. -/
inductive Outline.IsDistinct : Outline → Prop where
  | leaf (vt : ValueType) : IsDistinct (.leaf vt)
  | nested (vt : ValueType) : IsDistinct (.nested vt)
  | composite (shape : CompositeShape) : IsDistinct (.composite shape)
  | struct {name : String} {fields : List (String × Outline)} (hnames : (fields.map (·.1)).Nodup)
      (hfields : ∀ f ∈ fields, IsDistinct f.2) : IsDistinct (.struct name fields)

/-- The values of a shape are arranged so. -/
def Registry.Arranges (r : Registry) : Shape → Outline → Prop
  | .identifier, outline => outline = .leaf .string
  | .single vt, outline => ∃ fuel, r.outlineWithin fuel vt = some outline
  | .list vt, outline => outline = .nested vt

theorem Registry.propertyOutline?_eq_some {fuel : Nat} {p : Property} {f : String × Outline}
    (h : r.propertyOutline? fuel p = some f) : f.1 = p.name ∧ r.Arranges p.shape f.2 ∧
      ∀ vt, p.shape = .single vt → r.outlineWithin fuel vt = some f.2 := by
  unfold propertyOutline? at h
  cases hshape : p.shape with
  | identifier =>
    rw [hshape] at h
    obtain rfl := Option.some.inj h
    exact ⟨rfl, rfl, fun _ h => nomatch h⟩
  | single vt =>
    rw [hshape] at h
    obtain ⟨outline, houtline, rfl⟩ := Option.map_eq_some_iff.1 h
    exact ⟨rfl, ⟨fuel, houtline⟩, fun _ h => Shape.single.inj h ▸ houtline⟩
  | list vt =>
    rw [hshape] at h
    obtain rfl := Option.some.inj h
    exact ⟨rfl, rfl, fun _ h => nomatch h⟩

/-- What arrangements there are: single components, those of a multi-component value, and the fields
of a sub-structure. -/
theorem Registry.outlineWithin_cases {fuel : Nat} {vt : ValueType} {outline : Outline}
    (h : r.outlineWithin fuel vt = some outline) : outline = .leaf vt ∨
      (∃ shape, vt = .composite shape ∧ outline = .composite shape) ∨
      ∃ name fields t fuel', vt = .embedded name ∧ outline = .struct name fields ∧
        fuel = fuel' + 1 ∧ r.type? name = some t ∧
        List.Forall₂ (fun p f => r.propertyOutline? fuel' p = some f) t.properties fields := by
  cases htuple : Cell.Context.takesTuple vt with
  | false =>
    rw [outlineWithin_of_not_takesTuple r fuel htuple] at h
    exact Or.inl (Option.some.inj h).symm
  | true =>
    right
    cases vt with
    | composite shape =>
      rw [outlineWithin_composite] at h
      exact Or.inl ⟨shape, rfl, (Option.some.inj h).symm⟩
    | embedded name =>
      cases fuel with
      | zero => cases h
      | succ fuel =>
        cases ht : r.type? name with
        | none =>
          rw [outlineWithin, ht] at h
          cases h
        | some t =>
          rw [outlineWithin_embedded fuel ht] at h
          obtain ⟨fields, hfields, rfl⟩ := Option.map_eq_some_iff.1 h
          -- the fields of the outline are those of the properties, in order
          exact Or.inr ⟨name, fields, t, fuel, rfl, rfl, rfl, ht, mapM_eq_some.1 hfields⟩
    | _ => cases htuple

/-- The fields of an arrangement are told apart, since the properties of a type are. -/
theorem Registry.IsSound.isDistinct_within (hr : r.IsSound) {fuel : Nat} {vt : ValueType}
    {outline : Outline} (h : r.outlineWithin fuel vt = some outline) : outline.IsDistinct := by
  induction fuel using Nat.strong_induction_on generalizing vt outline with
  | _ fuel ih =>
    rcases outlineWithin_cases h with rfl | ⟨shape, rfl, rfl⟩ |
      ⟨name, fields, t, fuel', rfl, rfl, rfl, ht, hall⟩
    · exact .leaf vt
    · exact .composite shape
    have hnames : fields.map (·.1) = t.properties.map (·.name) := by
      refine List.forall₂_eq_eq_eq ▸ ?_
      rw [List.forall₂_map_left_iff, List.forall₂_map_right_iff]
      exact hall.flip.imp fun f p hf => (propertyOutline?_eq_some hf).1
    refine .struct (hnames ▸ hr.propertyNames t (List.mem_of_find?_eq_some ht)) fun f hf => ?_
    obtain ⟨p, -, hp⟩ := exists_of_mem_forall₂ hall hf
    obtain ⟨-, harranged, hwithin⟩ := propertyOutline?_eq_some hp
    cases hshape : p.shape with
    | identifier =>
      rw [hshape] at harranged
      exact harranged ▸ .leaf _
    | list vt =>
      rw [hshape] at harranged
      exact harranged ▸ .nested _
    | single vt => exact ih fuel' (Nat.lt_succ_self _) (hwithin vt hshape)

theorem Registry.IsSound.isDistinct (hr : r.IsSound) {vt : ValueType} {outline : Outline}
    (h : r.outline? vt = some outline) : outline.IsDistinct := hr.isDistinct_within h

/-! ### Fields -/

namespace Value

variable {fields : List (String × Outline)} {values : List (String × Value)}

/-- Fields with the given names have a first value of each. -/
theorem exists_field? (hnames : values.map (·.1) = fields.map (·.1)) {f : String × Outline}
    (hf : f ∈ fields) : ∃ v, field? values f.1 = some v := by
  have hmem : f.1 ∈ values.map (·.1) := by
    rw [hnames]
    exact List.mem_map_of_mem hf
  obtain ⟨w, hw, hname⟩ := List.mem_map.1 hmem
  have hsome : (values.find? fun g => g.1 == f.1).isSome = true :=
    List.find?_isSome.2 ⟨w, hw, beq_iff_eq.2 hname⟩
  obtain ⟨found, hfound⟩ := Option.isSome_iff_exists.1 hsome
  exact ⟨found.2, by rw [field?, hfound]; rfl⟩

theorem mem_of_field? {name : String} {v : Value} (h : field? values name = some v) :
    (name, v) ∈ values := by
  obtain ⟨g, hg, rfl⟩ := Option.map_eq_some_iff.1 h
  have hname := List.find?_some hg
  obtain rfl : g.1 = name := beq_iff_eq.1 hname
  exact List.mem_of_find?_eq_some hg

/-- Fields that are told apart are found one by one. -/
theorem map_field? (hdistinct : (fields.map (·.1)).Nodup)
    (hnames : values.map (·.1) = fields.map (·.1)) {form : String × Outline → Value}
    (h : ∀ f ∈ fields, ∀ v, field? values f.1 = some v → form f = v) :
    fields.map (fun f => (f.1, form f)) = values := by
  induction fields generalizing values with
  | nil => exact (List.map_eq_nil_iff.1 hnames).symm
  | cons f fields ih =>
    cases values with
    | nil => cases hnames
    | cons w values =>
      obtain ⟨hname, hrest⟩ : w.1 = f.1 ∧ values.map (·.1) = fields.map (·.1) :=
        List.cons.inj hnames
      obtain ⟨hnew, hdistinct⟩ := List.nodup_cons.1 hdistinct
      have hfirst : form f = w.2 := by
        refine h f List.mem_cons_self w.2 ?_
        have hfound : (w :: values).find? (fun g => g.1 == f.1) = some w :=
          List.find?_cons_of_pos (beq_iff_eq.2 hname)
        rw [field?, hfound]
        rfl
      -- no other field has the name of the first one
      have hothers : fields.map (fun g => (g.1, form g)) = values := by
        refine ih hdistinct hrest fun g hg v hv => h g (List.mem_cons_of_mem _ hg) v ?_
        have hne : ¬(w.1 == g.1) = true := by
          rw [beq_iff_eq, hname]
          exact fun hsame => hnew (List.mem_map.2 ⟨g, hg, hsame.symm⟩)
        have hfound : (w :: values).find? (fun x => x.1 == g.1) =
            values.find? fun x => x.1 == g.1 := List.find?_cons_of_neg hne
        rw [field?, hfound]
        exact hv
      rw [List.map_cons, hothers, hfirst, ← hname]

end Value

/-! ### Values that were read -/

namespace Cell.Context

open Text

variable (ctx : Context)

/-- What reading gives for an arrangement. -/
inductive Reads : Outline → Value → Prop where
  | leaf {vt : ValueType} {v : Value} (cs : List Char) (h : ctx.readLeaf vt cs = .ok v) :
      Reads (.leaf vt) v
  | composite {shape : CompositeShape} {components : List Scalar}
      (hlength : components.length = shape.arity)
      (h : ∀ s ∈ components, s.kind = shape.componentKind ∧ s.quieted = s) :
      Reads (.composite shape) (.composite components)
  | nested {vt : ValueType} {items : List Value}
      (hcomponents : items ≠ [] →
        ∃ outline, ctx.registry.outline? vt = some outline ∧ outline.arity ≠ 0)
      (h : ∀ outline, ctx.registry.outline? vt = some outline → ∀ v ∈ items, Reads outline v) :
      Reads (.nested vt) (.list items)
  | struct {name : String} {fields : List (String × Outline)} {values : List (String × Value)}
      (hdistinct : (fields.map (·.1)).Nodup) (hnames : values.map (·.1) = fields.map (·.1))
      (h : ∀ f ∈ fields, ∀ v, Value.field? values f.1 = some v → Reads f.2 v) :
      Reads (.struct name fields) (.struct values)

variable {ctx} {nested : ValueType → List Char → Except CellError Value} {outline : Outline}
  {v : Value} {vt : ValueType}

theorem readScalar_eq_ok {kind : ScalarKind} {cs : List Char} {s : Scalar}
    (h : readScalar kind cs = .ok s) : s.kind = kind ∧ s.quieted = s := by
  unfold readScalar at h
  dsimp only at h
  split_ifs at h
  · obtain rfl := Except.ok.inj h
    cases kind <;> exact ⟨rfl, rfl⟩
  · split at h
    · next hs =>
      obtain rfl := Except.ok.inj h
      exact Scalar.ofText?_eq_some hs
    · cases h

theorem readComponents_spec {kind : ScalarKind} {whole : List Char} {count : Nat}
    {parts rest : List (List Char)} {components : List Scalar}
    (h : readComponents kind whole count parts = .ok (components, rest)) :
    components.length = count ∧ ∀ s ∈ components, s.kind = kind ∧ s.quieted = s := by
  induction count generalizing parts components rest with
  | zero =>
    rw [readComponents] at h
    obtain ⟨rfl, -⟩ := Prod.mk.inj (Except.ok.inj h)
    exact ⟨rfl, List.forall_mem_nil _⟩
  | succ count ih =>
    rw [readComponents] at h
    obtain ⟨⟨part, parts⟩, -, h⟩ := bind_eq_ok.1 h
    obtain ⟨s, hs, h⟩ := bind_eq_ok.1 h
    obtain ⟨⟨others, left⟩, hothers, h⟩ := bind_eq_ok.1 h
    obtain ⟨rfl, -⟩ := Prod.mk.inj (Except.ok.inj h)
    obtain ⟨hlength, hall⟩ := ih hothers
    exact ⟨congrArg (· + 1) hlength, List.forall_mem_cons.2 ⟨readScalar_eq_ok hs, hall⟩⟩

mutual

/-- The components of an arrangement are read as such a value, if the lists among them are. -/
theorem reads_of_readParts (hnested : ∀ vt cs v, nested vt cs = .ok v → ctx.Reads (.nested vt) v)
    (whole : List Char) : ∀ (outline : Outline) (parts : List (List Char)) {v : Value}
      {rest : List (List Char)}, outline.IsDistinct →
        ctx.readParts nested whole outline parts = .ok (v, rest) → ctx.Reads outline v
  | .leaf vt, parts, v, rest, _, h => by
    rw [readParts] at h
    obtain ⟨⟨part, parts⟩, -, h⟩ := bind_eq_ok.1 h
    obtain ⟨w, hw, h⟩ := bind_eq_ok.1 h
    obtain ⟨rfl, -⟩ := Prod.mk.inj (Except.ok.inj h)
    exact .leaf part hw
  | .nested vt, parts, v, rest, _, h => by
    rw [readParts] at h
    obtain ⟨⟨part, parts⟩, -, h⟩ := bind_eq_ok.1 h
    obtain ⟨w, hw, h⟩ := bind_eq_ok.1 h
    obtain ⟨rfl, -⟩ := Prod.mk.inj (Except.ok.inj h)
    exact hnested vt part _ hw
  | .composite shape, parts, v, rest, _, h => by
    rw [readParts] at h
    obtain ⟨⟨components, parts⟩, hcomponents, h⟩ := bind_eq_ok.1 h
    obtain ⟨rfl, -⟩ := Prod.mk.inj (Except.ok.inj h)
    obtain ⟨hlength, hall⟩ := readComponents_spec hcomponents
    exact .composite hlength hall
  | .struct name fields, parts, v, rest, .struct hnames hfields, h => by
    rw [readParts] at h
    obtain ⟨⟨values, parts⟩, hvalues, h⟩ := bind_eq_ok.1 h
    obtain ⟨rfl, -⟩ := Prod.mk.inj (Except.ok.inj h)
    have hall := reads_of_readFields hnested whole fields _ hfields hvalues
    refine .struct hnames ?_ fun f hf w hw => ?_
    · refine List.forall₂_eq_eq_eq ▸ ?_
      rw [List.forall₂_map_left_iff, List.forall₂_map_right_iff]
      exact hall.flip.imp fun w f hwf => hwf.1
    · -- the first value of the name stands where the field does, since no other has the name
      obtain ⟨g, hg, hname, hread⟩ := exists_of_mem_forall₂ hall (Value.mem_of_field? hw)
      obtain rfl : g = f := List.inj_on_of_nodup_map hnames hg hf hname.symm
      exact hread

/-- Each field is read as a value of its name and arrangement. -/
theorem reads_of_readFields (hnested : ∀ vt cs v, nested vt cs = .ok v → ctx.Reads (.nested vt) v)
    (whole : List Char) : ∀ (fields : List (String × Outline)) (parts : List (List Char))
      {values : List (String × Value)} {rest : List (List Char)},
        (∀ f ∈ fields, f.2.IsDistinct) →
        ctx.readFields nested whole fields parts = .ok (values, rest) →
          List.Forall₂ (fun f w => w.1 = f.1 ∧ ctx.Reads f.2 w.2) fields values
  | [], parts, values, rest, _, h => by
    rw [readFields] at h
    obtain ⟨rfl, -⟩ := Prod.mk.inj (Except.ok.inj h)
    exact .nil
  | f :: fields, parts, values, rest, hdistinct, h => by
    rw [readFields] at h
    obtain ⟨⟨w, parts'⟩, hw, h⟩ := bind_eq_ok.1 h
    obtain ⟨⟨others, parts''⟩, hothers, h⟩ := bind_eq_ok.1 h
    obtain ⟨rfl, -⟩ := Prod.mk.inj (Except.ok.inj h)
    have hfirst := reads_of_readParts hnested whole f.2 parts (hdistinct f List.mem_cons_self) hw
    exact .cons ⟨rfl, hfirst⟩ (reads_of_readFields hnested whole fields parts'
      (fun g hg => hdistinct g (List.mem_cons_of_mem _ hg)) hothers)

end

theorem reads_of_readOutline
    (hnested : ∀ vt cs v, nested vt cs = .ok v → ctx.Reads (.nested vt) v)
    (hdistinct : outline.IsDistinct) {cs : List Char}
    (h : ctx.readOutline nested outline cs = .ok v) : outline.arity ≠ 0 ∧ ctx.Reads outline v := by
  unfold readOutline at h
  split at h
  · cases h
  next parts hparts =>
  split_ifs at h with hlength
  obtain ⟨⟨w, rest⟩, hw, rfl⟩ := map_eq_ok.1 h
  refine ⟨fun hzero => ?_, reads_of_readParts hnested cs outline parts hdistinct hw⟩
  exact splitAtDepth?_ne_nil hparts (List.length_eq_zero_iff.1 (hlength.trans hzero))

/-- What a value that stands alone is read as. -/
theorem reads_of_readElement (hr : ctx.registry.IsSound)
    (hnested : ∀ vt cs v, nested vt cs = .ok v → ctx.Reads (.nested vt) v) {cs : List Char}
    (h : ctx.readElement nested vt cs = .ok v) :
    ∃ outline, ctx.registry.outline? vt = some outline ∧ outline.arity ≠ 0 ∧
      ctx.Reads outline v := by
  cases htuple : takesTuple vt with
  | false =>
    have hleaf : ctx.readLeaf vt cs = .ok v := by
      rw [← h]
      cases vt <;> first | rfl | cases htuple
    exact ⟨_, outline?_of_not_takesTuple htuple, Nat.one_ne_zero, .leaf cs hleaf⟩
  | true =>
    cases vt with
    | embedded name =>
      unfold readElement at h
      dsimp only at h
      split at h
      · next outline houtline =>
        exact ⟨outline, houtline, reads_of_readOutline hnested (hr.isDistinct houtline) h⟩
      · cases h
    | composite shape =>
      exact ⟨_, outline?_composite _ shape, reads_of_readOutline hnested (.composite shape) h⟩
    | _ => cases htuple

/-- What the elements of a list are read as. -/
theorem reads_of_mapM_readElement (hr : ctx.registry.IsSound)
    (hnested : ∀ vt cs v, nested vt cs = .ok v → ctx.Reads (.nested vt) v)
    {parts : List (List Char)} {items : List Value}
    (h : parts.mapM (ctx.readElement nested vt) = .ok items) :
    ctx.Reads (.nested vt) (.list items) := by
  have hitem : ∀ v ∈ items, ∃ outline, ctx.registry.outline? vt = some outline ∧
      outline.arity ≠ 0 ∧ ctx.Reads outline v := by
    intro v hv
    obtain ⟨part, -, hpart⟩ := exists_of_mem_mapM h hv
    exact reads_of_readElement hr hnested hpart
  refine .nested (fun hne => ?_) fun outline houtline v hv => ?_
  · obtain ⟨v, hv⟩ := List.exists_mem_of_ne_nil items hne
    obtain ⟨outline, houtline, harity, -⟩ := hitem v hv
    exact ⟨outline, houtline, harity⟩
  · obtain ⟨outline', houtline', -, hread⟩ := hitem v hv
    obtain rfl : outline = outline' := Option.some.inj (houtline.symm.trans houtline')
    exact hread

theorem reads_list_nil (vt : ValueType) : ctx.Reads (.nested vt) (.list []) :=
  .nested (fun hne => absurd rfl hne) fun _ _ _ hv => nomatch hv

/-- What a list inside a tuple is read as. -/
theorem reads_of_readNested (hr : ctx.registry.IsSound) (fuel : Nat) :
    ∀ (vt : ValueType) (cs : List Char) (v : Value), ctx.readNested fuel vt cs = .ok v →
      ctx.Reads (.nested vt) v := by
  induction fuel with
  | zero =>
    intro vt cs v h
    rw [readNested] at h
    obtain rfl := Except.ok.inj h
    exact reads_list_nil vt
  | succ fuel ih =>
    intro vt cs v h
    rw [readNested] at h
    split_ifs at h with hempty
    · obtain rfl := Except.ok.inj h
      exact reads_list_nil vt
    split at h
    · cases h
    split_ifs at h with hblank
    · obtain rfl := Except.ok.inj h
      exact reads_list_nil vt
    split at h
    · cases h
    · obtain ⟨items, hitems, rfl⟩ := map_eq_ok.1 h
      exact reads_of_mapM_readElement hr ih hitems

/-- **What a cell is read as.**  A property that is no identifier has an arrangement, and its cell is
read as a value of it, or as no sub-structure if it is blank. -/
theorem reads_of_decode (hr : ctx.registry.IsSound) {p : Property} {cell : String}
    (hshape : p.shape ≠ .identifier) (h : ctx.decode p cell = .ok v) :
    (∃ name, p.shape = .single (.embedded name) ∧ v = .noStruct) ∨
      ∃ outline, ctx.registry.cellOutline? p = some outline ∧ outline.arity ≠ 0 ∧
        ctx.Reads outline v := by
  have hnested := reads_of_readNested hr cell.toList.length
  unfold decode at h
  unfold Registry.cellOutline?
  cases hp : p.shape with
  | identifier => exact absurd hp hshape
  | list vt =>
    rw [hp] at h
    dsimp only at h
    refine Or.inr ⟨_, rfl, Nat.one_ne_zero, ?_⟩
    split_ifs at h
    · obtain rfl := Except.ok.inj h
      exact reads_list_nil vt
    · obtain ⟨items, hitems, rfl⟩ := map_eq_ok.1 h
      exact reads_of_mapM_readElement hr hnested hitems
  | single vt =>
    rw [hp] at h
    dsimp only at h
    split_ifs at h with hblank
    -- a blank tuple stands for its default
    · obtain rfl := Except.ok.inj h
      cases vt with
      | embedded name => exact Or.inl ⟨name, rfl, rfl⟩
      | composite shape =>
        have hkinds : ∀ s ∈ shape.defaultComponents,
            s.kind = shape.componentKind ∧ s.quieted = s := by cases shape <;> decide
        exact Or.inr ⟨_, outline?_composite _ shape, by cases shape <;> decide,
          .composite shape.length_defaultComponents hkinds⟩
      | recordRef target =>
        exact Or.inr ⟨_, outline?_of_not_takesTuple rfl, Nat.one_ne_zero, .leaf [] rfl⟩
      | _ =>
        rw [Bool.and_eq_true] at hblank
        cases hblank.1
    · exact Or.inr (reads_of_readElement hr hnested h)

/-! ### The types of read values -/

section WellTyped

variable {c : Catalog} (hr : ctx.registry.IsSound)
  (hreferences : ∀ target identifier guid, ctx.references.guid? target identifier = some guid →
    ∃ record ∈ (c.setOf target).records, record.guid = guid)

include hr

theorem wellTyped_of_readMember {name : String}
    (hdeclared : (ValueType.enum name).IsDeclared ctx.registry.declarations) {cs : List Char}
    (h : ctx.readMember name cs = .ok v) : v.WellTyped ctx.registry c (.single (.enum name)) := by
  unfold readMember at h
  split at h
  · cases h
  next e he =>
  dsimp only at h
  split_ifs at h with hempty hmember
  · obtain rfl := Except.ok.inj h
    exact Value.wellTyped_defaultElement hr hdeclared
  · obtain rfl := Except.ok.inj h
    obtain ⟨m, hm, hname⟩ := List.find?_isSome.1 (Option.isSome_map.symm.trans hmember)
    exact .enum he (List.mem_map.2 ⟨m, hm, beq_iff_eq.1 hname⟩)
  · split at h
    · next member hnumber =>
      obtain rfl := Except.ok.inj h
      obtain ⟨n, -, hname⟩ := Option.bind_eq_some_iff.1 hnumber
      obtain ⟨m, hm, rfl⟩ := Option.map_eq_some_iff.1 hname
      exact .enum he (List.mem_map_of_mem (List.mem_of_find?_eq_some hm))
    · cases h

include hreferences

theorem wellTyped_of_readLeaf (hdeclared : vt.IsDeclared ctx.registry.declarations)
    {cs : List Char} (h : ctx.readLeaf vt cs = .ok v) :
    v.WellTyped ctx.registry c (.single vt) := by
  unfold readLeaf at h
  dsimp only at h
  cases vt with
  | string =>
    obtain rfl := Except.ok.inj h
    exact .string _
  | localizedText =>
    obtain rfl := Except.ok.inj h
    exact .localizedText _
  | asset =>
    obtain rfl := Except.ok.inj h
    exact .asset _
  | enum name => exact wellTyped_of_readMember hr hdeclared h
  | scalar kind =>
    obtain ⟨s, hs, rfl⟩ := map_eq_ok.1 h
    obtain ⟨rfl, -⟩ := readScalar_eq_ok hs
    exact .scalar s
  | time kind =>
    cases kind with
    | duration =>
      dsimp only at h
      split_ifs at h
      · obtain rfl := Except.ok.inj h
        exact .duration 0
      · obtain ⟨ms, -, rfl⟩ := map_eq_ok.1 h
        exact .duration ms
    | dateTime =>
      dsimp only at h
      split_ifs at h
      · obtain rfl := Except.ok.inj h
        exact .dateTime 0
      · obtain ⟨ms, -, rfl⟩ := map_eq_ok.1 h
        exact .dateTime ms
  | recordRef target =>
    dsimp only at h
    split_ifs at h
    · obtain rfl := Except.ok.inj h
      exact .noRef target
    · split at h
      -- what is named is a record of the catalog
      · next guid hguid =>
        obtain rfl := Except.ok.inj h
        obtain ⟨record, hrecord, rfl⟩ := hreferences target _ guid hguid
        exact .ref hrecord
      · cases h
  | embedded name => cases h
  | composite shape => cases h

/-- **Values that were read are well typed**: they are arranged as their shape asks for, and every
leaf is one of its category. -/
theorem Reads.wellTyped (h : ctx.Reads outline v) {shape : Shape}
    (harranged : ctx.registry.Arranges shape outline) (hshape : shape ≠ .identifier)
    (hdeclared : ∀ vt, shape.element? = some vt → vt.IsDeclared ctx.registry.declarations) :
    v.WellTyped ctx.registry c shape := by
  induction h generalizing shape with
  | @leaf vt v cs hread =>
    cases shape with
    | identifier => exact absurd rfl hshape
    | list vt' => cases harranged
    | single vt' =>
      obtain ⟨fuel, hfuel⟩ := harranged
      -- only the outline of a leaf is a leaf
      rcases Registry.outlineWithin_cases hfuel with hleaf | ⟨_, -, h⟩ | ⟨_, _, _, _, -, h, -⟩
      · obtain rfl := Outline.leaf.inj hleaf
        exact wellTyped_of_readLeaf hr hreferences (hdeclared _ rfl) hread
      all_goals cases h
  | @composite composite components hlength hall =>
    cases shape with
    | identifier => cases harranged
    | list vt' => cases harranged
    | single vt' =>
      obtain ⟨fuel, hfuel⟩ := harranged
      rcases Registry.outlineWithin_cases hfuel with h | ⟨_, rfl, h⟩ | ⟨_, _, _, _, -, h, -⟩
      · cases h
      · obtain rfl := Outline.composite.inj h
        exact .composite hlength fun s hs => (hall s hs).1
      · cases h
  | @nested vt items hcomponents _ ih =>
    cases shape with
    | identifier => cases harranged
    | single vt' =>
      obtain ⟨fuel, hfuel⟩ := harranged
      rcases Registry.outlineWithin_cases hfuel with h | ⟨_, -, h⟩ | ⟨_, _, _, _, -, h, -⟩
      all_goals cases h
    | list vt' =>
      obtain rfl := Outline.nested.inj harranged
      refine .list fun item hitem => ?_
      obtain ⟨outline, houtline, -⟩ := hcomponents (List.ne_nil_of_mem hitem)
      exact ih outline houtline item hitem ⟨_, houtline⟩ (fun h => nomatch h) hdeclared
  | @struct name fields values hdistinct hnames _ ih =>
    cases shape with
    | identifier => cases harranged
    | list vt' => cases harranged
    | single vt' =>
      obtain ⟨fuel, hfuel⟩ := harranged
      rcases Registry.outlineWithin_cases hfuel with h | ⟨_, -, h⟩ | ⟨_, _, t, _, rfl, h, -, ht, hall⟩
      · cases h
      · cases h
      obtain ⟨rfl, rfl⟩ := Outline.struct.inj h
      -- the fields of the outline come from the properties of the type
      obtain ⟨t', ht', hname, hkind⟩ := hr.exists_struct (hdeclared _ rfl)
      obtain rfl : t' = t := Option.some.inj ((hname ▸ hr.type?_of_mem ht').symm.trans ht)
      refine .struct ht fun p hp v hv => ?_
      obtain ⟨f, hf, hproperty⟩ := exists_of_mem_forall₂ hall.flip hp
      obtain ⟨hname, harranged, -⟩ := Registry.propertyOutline?_eq_some hproperty
      exact ih f hf v (hname ▸ hv) harranged (hr.shape_ne_identifier ht' hkind hp)
        (hr.declared t' ht' p hp)

/-- **A cell is read as a well-typed value** of its property. -/
theorem wellTyped_of_decode {p : Property} {cell : String} (hshape : p.shape ≠ .identifier)
    (hdeclared : ∀ vt, p.shape.element? = some vt → vt.IsDeclared ctx.registry.declarations)
    (h : ctx.decode p cell = .ok v) : v.WellTyped ctx.registry c p.shape := by
  rcases reads_of_decode hr hshape h with ⟨name, hname, rfl⟩ | ⟨outline, houtline, -, hread⟩
  · rw [hname]
    exact .noStruct name
  · refine hread.wellTyped hr hreferences ?_ hshape hdeclared
    unfold Registry.cellOutline? at houtline
    cases hp : p.shape with
    | identifier => exact absurd hp hshape
    | single vt =>
      rw [hp] at houtline
      exact ⟨_, houtline⟩
    | list vt =>
      rw [hp] at houtline
      exact (Option.some.inj houtline).symm

end WellTyped

/-! ### Read values that are written again -/

/-- **A value that was read is its own canonical form.** -/
theorem Reads.canonical (h : ctx.Reads outline v) : v.canonical ctx.registry outline = v := by
  induction h with
  | leaf => exact Value.canonical_leaf _ _ _
  | composite => exact Value.canonical_composite _ _ _
  | @nested vt items hcomponents _ ih =>
    by_cases hnil : items = []
    · rw [hnil]
      exact Value.canonical_list_nil _ _
    · obtain ⟨outline, houtline, -⟩ := hcomponents hnil
      rw [Value.canonical_list houtline, List.map_congr_left fun v hv => ih outline houtline v hv,
        List.map_id']
  | struct hdistinct hnames _ ih =>
    rw [Value.canonical]
    refine congrArg _ (Value.map_field? hdistinct hnames fun f hf v hv => ?_)
    rw [Value.canonicalField_eq, hv]
    exact ih f hf v hv

variable (ctx) in
/-- The leaves of a value with the given arrangement, at any depth, each with its category. -/
inductive HasLeaf : Outline → Value → ValueType → Value → Prop where
  | here {vt : ValueType} {v : Value} : HasLeaf (.leaf vt) v vt v
  | field {name : String} {fields : List (String × Outline)} {values : List (String × Value)}
      {f : String × Outline} {v leaf : Value} {vt : ValueType} (hf : f ∈ fields)
      (hv : Value.field? values f.1 = some v) (h : HasLeaf f.2 v vt leaf) :
      HasLeaf (.struct name fields) (.struct values) vt leaf
  | element {outer vt : ValueType} {items : List Value} {outline : Outline} {v leaf : Value}
      (houtline : ctx.registry.outline? outer = some outline) (hv : v ∈ items)
      (h : HasLeaf outline v vt leaf) : HasLeaf (.nested outer) (.list items) vt leaf

variable (ctx) in
/-- Each leaf of a value, at any depth, is one that its cell names. -/
def LegibleThroughout (outline : Outline) (v : Value) : Prop :=
  ∀ vt leaf, ctx.HasLeaf outline v vt leaf → ctx.Legible (.single vt) leaf

theorem LegibleThroughout.field {name : String} {fields : List (String × Outline)}
    {values : List (String × Value)} (h : ctx.LegibleThroughout (.struct name fields) (.struct values))
    {f : String × Outline} (hf : f ∈ fields) (hv : Value.field? values f.1 = some v) :
    ctx.LegibleThroughout f.2 v := fun vt leaf hleaf => h vt leaf (.field hf hv hleaf)

theorem LegibleThroughout.element {items : List Value}
    (h : ctx.LegibleThroughout (.nested vt) (.list items))
    (houtline : ctx.registry.outline? vt = some outline) (hv : v ∈ items) :
    ctx.LegibleThroughout outline v := fun vt leaf hleaf => h vt leaf (.element houtline hv hleaf)

/-- A leaf has no pattern for no number but the one that a text stands for. -/
theorem quieted_of_readLeaf {cs : List Char} (h : ctx.readLeaf vt cs = .ok v) : v.quieted = v := by
  unfold readLeaf at h
  dsimp only at h
  cases vt with
  | string | localizedText | asset =>
    obtain rfl := Except.ok.inj h
    rfl
  | enum name =>
    dsimp only at h
    unfold readMember at h
    split at h
    · cases h
    · dsimp only at h
      split_ifs at h
      · obtain rfl := Except.ok.inj h
        rfl
      · obtain rfl := Except.ok.inj h
        rfl
      · split at h
        · obtain rfl := Except.ok.inj h
          rfl
        · cases h
  | scalar kind =>
    obtain ⟨s, hs, rfl⟩ := map_eq_ok.1 h
    exact congrArg Value.scalar (readScalar_eq_ok hs).2
  | time kind =>
    cases kind with
    | duration | dateTime =>
      dsimp only at h
      split_ifs at h
      · obtain rfl := Except.ok.inj h
        rfl
      · obtain ⟨ms, -, rfl⟩ := map_eq_ok.1 h
        rfl
  | recordRef target =>
    dsimp only at h
    split_ifs at h
    · obtain rfl := Except.ok.inj h
      rfl
    · split at h
      · obtain rfl := Except.ok.inj h
        rfl
      · cases h
  | embedded name => cases h
  | composite shape => cases h

/-- **Legible leaves of a read value are read back.** -/
theorem Reads.leavesReadBack (hreferences : ctx.references.ReadBack) (h : ctx.Reads outline v)
    (hlegible : ctx.LegibleThroughout outline v) : ctx.LeavesReadBack outline v := by
  induction h with
  | @leaf vt v cs hread =>
    refine .leaf fun text htext => ?_
    have hback := (readLeaf_writeLeaf hreferences htext).2 (hlegible vt v .here)
    rwa [quieted_of_readLeaf hread] at hback
  | @composite shape components hlength hall =>
    refine .composite fun s hs => ?_
    obtain ⟨hkind, hquieted⟩ := hall s hs
    have hread : ctx.readLeaf (.scalar s.kind) s.text.toList = _ := readLeaf_scalar s
    rw [hkind, hquieted] at hread
    obtain ⟨s', hs', hsame⟩ := map_eq_ok.1 hread
    cases hsame
    exact hs'
  | nested hcomponents _ ih =>
    exact .nested fun outline houtline v hv =>
      ih outline houtline v hv (hlegible.element houtline hv)
  | struct hdistinct hnames _ ih =>
    refine .struct fun f hf => ?_
    obtain ⟨v, hv⟩ := Value.exists_field? hnames hf
    rw [hv]
    exact ih f hf v hv (hlegible.field hf hv)

/-- What some outline of a type has, its outline has. -/
theorem arity_ne_zero_of_exists
    (h : ∃ outline, ctx.registry.outline? vt = some outline ∧ outline.arity ≠ 0)
    (houtline : ctx.registry.outline? vt = some outline) : outline.arity ≠ 0 := by
  obtain ⟨outline', houtline', harity⟩ := h
  obtain rfl : outline = outline' := Option.some.inj (houtline.symm.trans houtline')
  exact harity

/-- **The components of a read value are read back.** -/
theorem Reads.readsBack (h : ctx.Reads outline v) (hleaves : ctx.LeavesReadBack outline v) :
    ctx.ReadsBack outline v := by
  -- a list of a sub-structure without components is not read, so no list needs any of those
  induction h with
  | leaf | composite => exact readsBack_of_leaves hleaves fun _ _ hholds => nomatch hholds
  | @nested vt items hcomponents _ ih =>
    cases hleaves with
    | nested hleaves =>
    intro fuel fuel' parts whole rest hparts hfuel
    rw [writeParts] at hparts
    obtain ⟨part, hpart, hparts⟩ := bind_eq_ok.1 hparts
    obtain rfl := Except.ok.inj hparts
    have hread := readNested_of_readsBack hleaves
      (fun outline houtline v hv => ih outline houtline v hv (hleaves outline houtline v hv))
      (fun hne _ houtline => arity_ne_zero_of_exists (hcomponents hne) houtline) hpart
      (hfuel part List.mem_cons_self)
    rw [readParts]
    exact bind_eq_ok.2 ⟨_, rfl, bind_eq_ok.2 ⟨_, hread, rfl⟩⟩
  | @struct name fields values hdistinct hnames _ ih =>
    cases hleaves with
    | struct hleaves =>
    intro fuel fuel' parts whole rest hparts hfuel
    rw [writeParts] at hparts
    have hfields : ∀ f ∈ fields,
        ctx.ReadsBack f.2 ((Value.field? values f.1).getD (ctx.absentField f.2)) := by
      intro f hf
      obtain ⟨v, hv⟩ := Value.exists_field? hnames hf
      have hleaf := hleaves f hf
      rw [hv] at hleaf ⊢
      exact ih f hf v hv hleaf
    have hread := readFields_of_readsBack hfields hparts hfuel whole rest
    rw [readParts, Value.canonical]
    exact bind_eq_ok.2 ⟨_, hread, rfl⟩

end Cell.Context

end RecordTables
