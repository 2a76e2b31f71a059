import RecordTables.Proofs.Container.Opening
import RecordTables.Proofs.Schema.Agreement

/-!
# Containers under another registry of the same stream

Containers are trusted if they have the fingerprint of the schema.  What that is worth, but for
collisions of the hash, is `Registration.compatible_of_stream`: registries whose schemas feed the same
stream open the same containers, and read the same values from them.  The stream does not tell the
name of the identifier property, so records are found alike only if that is the same
(`Registration.exists_lookup_ne`).
-/

namespace RecordTables

open Schema Container

/-- Registries that store alike: they may differ in what is the identifier of a record. -/
structure Registry.StoresAlike (r r' : Registry) : Prop where
  fingerprint : r.fingerprint = r'.fingerprint
  layout : r.layout = r'.layout
  enums : r.declarations.enums = r'.declarations.enums
  stored : r.tables.map TablePlan.stored = r'.tables.map TablePlan.stored
  tables : r.identifierProperty = r'.identifierProperty → r.tables = r'.tables
  nested : ∀ plan ∈ r.tables, ∀ q ∈ plan.properties, ∀ target, q.read = .embedded target →
    r.table? target = r'.table? target

theorem Registry.StoresAlike.refl (r : Registry) : r.StoresAlike r where
  fingerprint := rfl
  layout := rfl
  enums := rfl
  stored := rfl
  tables := fun _ => rfl
  nested := fun _ _ _ _ _ _ => rfl

/-- Registries that were built from schemas of one stream store alike. -/
theorem Registration.storesAlike {a a' : Registration} {options options' : Options}
    {r r' : Registry} {closed closed' : List (TypeDeclaration × List PropertyDeclaration)}
    (hr : a.Yields options closed r) (hr' : a'.Yields options' closed' r')
    (hsize : (Stream.schema closed a.declarations.enums).length < 2 ^ 64)
    (h : Stream.schema closed a.declarations.enums = Stream.schema closed' a'.declarations.enums) :
    r.StoresAlike r' := by
  -- one stream is that of one schema, so both sides lay down alike
  obtain ⟨htypes, henums⟩ := Stream.schema_inj hsize h
  have htables := stored_tables_agree hr hr' htypes henums
  refine ⟨?_, layout_agree hr hr' htypes henums, ?_, htables, ?_, fun plan hplan q hq target hread => ?_⟩
  · rw [hr.fingerprint, hr'.fingerprint, h]
  · rw [hr.declarations, hr'.declarations, henums]
  · intro hidentifier
    unfold Registry.identifierProperty at hidentifier
    rw [hr.options, hr'.options] at hidentifier
    exact tables_agree hr hr' htypes henums hidentifier
  -- a nested table holds no records, so storing it leaves out nothing
  · obtain ⟨nested, hnested, hkind⟩ := hr.exists_table?_of_read hplan hq hread
    have hfind := Registry.table?_stored htables target
    rw [hnested, Option.map_some] at hfind
    obtain ⟨nested', hnested', hstored⟩ := Option.map_eq_some_iff.1 hfind.symm
    have hne : nested.kind ≠ .record := by rw [hkind]; decide
    have hne' : nested'.kind ≠ .record := by
      rw [← TablePlan.kind_stored, hstored, TablePlan.kind_stored]
      exact hne
    rw [TablePlan.stored_of_ne_record hne, TablePlan.stored_of_ne_record hne'] at hstored
    rw [hnested, hnested', hstored]

/-- The same table, looked at with plans that store alike. -/
structure TableView.Alike (t t' : TableView) : Prop where
  table : t.table = t'.table
  layout : t.layout = t'.layout
  plan : t.plan.stored = t'.plan.stored

namespace OpenContainer

/-- The value of a property in a row of a table of a name. -/
def get (c : OpenContainer) (table : String) (row : UInt32) (property : String) :
    Except ContainerError Value := do
  c.value (← c.view table) row property

/-- The row of the record of a type with an identifier. -/
def lookup (c : OpenContainer) (recordType identifier : String) :
    Except ContainerError (Option UInt32) := do
  c.find (← c.view recordType) identifier

/-- The same container with the same overrides, open under registries that store alike. -/
structure Alike (c c' : OpenContainer) : Prop where
  registry : c.registry.StoresAlike c'.registry
  container : c.container = c'.container
  overrides : c.overrides = c'.overrides

section Alike

variable {c c' : OpenContainer} (h : c.Alike c')

include h

/-- A table is looked at alike, or under neither registry. -/
theorem view_alike (name : String) :
    (∃ e, c.view name = .error e ∧ c'.view name = .error e) ∨
      ∃ t t', c.view name = .ok t ∧ c'.view name = .ok t' ∧ t.Alike t' ∧
        c.registry.table? name = some t.plan ∧ c'.registry.table? name = some t'.plan := by
  have hplans := Registry.table?_stored h.registry.stored name
  unfold view
  rw [← h.container, ← h.registry.layout]
  cases c.container.table? name with
  | none => exact Or.inl ⟨_, rfl, rfl⟩
  | some table =>
    cases hplan : c.registry.table? name with
    | none =>
      rw [hplan] at hplans
      rw [Option.map_eq_none_iff.1 hplans.symm]
      exact Or.inl ⟨_, rfl, rfl⟩
    | some plan =>
      rw [hplan] at hplans
      obtain ⟨plan', hplan', hstored⟩ := Option.map_eq_some_iff.1 hplans.symm
      rw [hplan']
      cases c.registry.layout.table? name with
      | none => exact Or.inl ⟨_, rfl, rfl⟩
      | some layout => exact Or.inr ⟨_, _, rfl, rfl, ⟨rfl, rfl, hstored.symm⟩, rfl, rfl⟩

theorem string_alike : c.string = c'.string := by
  funext i
  unfold string
  rw [h.container]

theorem vector_alike : c.vector = c'.vector := by
  funext i element
  unfold vector
  rw [h.container]

theorem vectorScalars_alike : c.vectorScalars = c'.vectorScalars := by
  funext i kind
  unfold vectorScalars
  rw [vector_alike h]

theorem vectorIndices_alike : c.vectorIndices = c'.vectorIndices := by
  funext i
  unfold vectorIndices
  rw [vector_alike h]

theorem textValue_alike : c.textValue = c'.textValue := by
  funext i
  unfold textValue
  rw [string_alike h]

theorem assetValue_alike : c.assetValue = c'.assetValue := by
  funext i
  unfold assetValue
  rw [string_alike h]

theorem member_alike : c.member = c'.member := by
  funext name s
  have henum : c.registry.enum? name = c'.registry.enum? name := by
    unfold Registry.enum? Declarations.enum?
    rw [h.registry.enums]
  unfold member
  rw [henum]

theorem refValue_alike : c.refValue = c'.refValue := by
  funext target i
  unfold refValue
  split_ifs
  · rfl
  obtain ⟨e, hview, hview'⟩ | ⟨t, t', hview, hview', ht, -⟩ := view_alike h target
  · rw [hview, hview']
  · rw [hview, hview', ok_bind, ok_bind, ht.table]
    unfold TableView.guid?
    rw [ht.table]

variable {nested nested' : String → UInt32 → Except ContainerError Value} {t t' : TableView}
  {q q' : PropertyPlan}

omit h in
theorem structValue_congr {target : String} (hnested : nested target = nested' target) :
    structValue nested target = structValue nested' target := by
  funext i
  unfold structValue
  rw [hnested]

omit h in
theorem slotBytes_alike (hlayout : t.layout = t'.layout) : t.slotBytes = t'.slotBytes := by
  funext row slot
  unfold TableView.slotBytes
  rw [hlayout]

omit h in
theorem slotIndex_alike (hlayout : t.layout = t'.layout) : t.slotIndex = t'.slotIndex := by
  funext row slot
  unfold TableView.slotIndex
  rw [slotBytes_alike hlayout]

omit h in
theorem slotScalar_alike (hlayout : t.layout = t'.layout) : t.slotScalar = t'.slotScalar := by
  funext row slot kind
  unfold TableView.slotScalar
  rw [slotBytes_alike hlayout]

/-- A single value reads alike from slots of the same fields. -/
theorem readSingle_alike (ht : t.layout = t'.layout) (hread : q.read = q'.read)
    (hwrite : q.write = q'.write)
    (hnested : ∀ target, q.read = .embedded target → nested target = nested' target)
    (row : List UInt8) (first : String) :
    c.readSingle nested t q row first = c'.readSingle nested' t' q' row first := by
  unfold readSingle
  rw [← hread, ← hwrite, slotIndex_alike ht, slotScalar_alike ht, textValue_alike h,
    assetValue_alike h, member_alike h, refValue_alike h]
  split
  case h_7 target hembedded => rw [structValue_congr (hnested target hembedded)]
  all_goals rfl

/-- A list reads alike from slots of the same fields. -/
theorem readList_alike (ht : t.layout = t'.layout) (hread : q.read = q'.read)
    (hwrite : q.write = q'.write) (hname : q.property.name = q'.property.name)
    (hnested : ∀ target, q.read = .embedded target → nested target = nested' target)
    (row : List UInt8) (first : String) :
    c.readList nested t q row first = c'.readList nested' t' q' row first := by
  unfold readList
  rw [← hread, ← hwrite, ← hname, slotIndex_alike ht, string_alike h, assetValue_alike h,
    member_alike h, refValue_alike h, vectorIndices_alike h, vectorScalars_alike h]
  split
  case h_7 target hembedded => rw [structValue_congr (hnested target hembedded)]
  all_goals rfl

/-- What is stored alike reads alike, if sub-structures do. -/
theorem readProperty_alike (ht : t.layout = t'.layout) (hq : q.stored = q'.stored)
    (hnested : ∀ target, q.read = .embedded target → nested target = nested' target)
    (row : List UInt8) :
    c.readProperty nested t q row = c'.readProperty nested' t' q' row := by
  have hwrite : q.write = q'.write := by
    simpa only [PropertyPlan.stored] using congrArg PropertyPlan.write hq
  have hread : q.read = q'.read := by
    simpa only [PropertyPlan.stored] using congrArg PropertyPlan.read hq
  have hlist : q.isList = q'.isList := by
    simpa only [PropertyPlan.stored] using congrArg PropertyPlan.isList hq
  have hname : q.property.name = q'.property.name := by
    simpa only [PropertyPlan.stored, Property.stored] using
      congrArg (fun p : PropertyPlan => p.property.name) hq
  unfold readProperty
  rw [← hwrite, ← hlist, ← hname]
  split
  · rfl
  · rw [readSingle_alike h ht hread hwrite hnested, readList_alike h ht hread hwrite hname hnested]

/-- A property is read alike in views that are alike. -/
theorem bakedWith_alike (ht : t.Alike t')
    (hnested : ∀ q ∈ t.plan.properties, ∀ target, q.read = .embedded target →
      nested target = nested' target) (row : UInt32) (property : String) :
    c.bakedWith nested t row property = c'.bakedWith nested' t' row property := by
  have hproperty := TablePlan.property?_stored ht.plan property
  unfold bakedWith
  rw [← ht.table]
  cases hq : t.plan.property? property with
  | none =>
    rw [hq] at hproperty
    rw [Option.map_eq_none_iff.1 hproperty.symm]
  | some q =>
    rw [hq] at hproperty
    obtain ⟨q', hq', hstored⟩ := Option.map_eq_some_iff.1 hproperty.symm
    rw [hq']
    cases t.table.row? row with
    | none => rfl
    | some bytes =>
      exact readProperty_alike h ht.layout hstored.symm
        (hnested q (List.mem_of_find?_eq_some hq)) bytes

/-- Sub-structures are read alike. -/
theorem readStruct_alike (fuel : Nat) {name : String}
    (hname : c.registry.table? name = c'.registry.table? name) :
    c.readStruct fuel name = c'.readStruct fuel name := by
  induction fuel generalizing name with
  | zero => rfl
  | succ fuel ih =>
    funext i
    unfold readStruct
    obtain ⟨e, hview, hview'⟩ | ⟨t, t', hview, hview', ht, hplan, hplan'⟩ := view_alike h name
    · rw [hview, hview', error_bind, error_bind]
    · have hsame : t.plan = t'.plan := Option.some.inj ((hplan.symm.trans hname).trans hplan')
      have hmem : t.plan ∈ c.registry.tables := List.mem_of_find?_eq_some hplan
      have hfields : c.bakedWith (c.readStruct fuel) t i = c'.bakedWith (c'.readStruct fuel) t' i :=
        funext <| bakedWith_alike h ht
          (fun q hq target hread => ih (h.registry.nested _ hmem q hq target hread)) i
      rw [hview, hview', ok_bind, ok_bind]
      dsimp only
      rw [hfields, hsame]

theorem baked_alike (ht : t.Alike t') (hmem : t.plan ∈ c.registry.tables) (row : UInt32)
    (property : String) : c.baked t row property = c'.baked t' row property := by
  unfold baked nestingLimit
  rw [← h.container]
  exact bakedWith_alike h ht
    (fun q hq target hread => readStruct_alike h _ (h.registry.nested _ hmem q hq target hread))
    row property

/-- **Every property of every row reads alike.** -/
theorem get_alike (table : String) (row : UInt32) (property : String) :
    c.get table row property = c'.get table row property := by
  unfold get
  obtain ⟨e, hview, hview'⟩ | ⟨t, t', hview, hview', ht, hplan, -⟩ := view_alike h table
  · rw [hview, hview', error_bind, error_bind]
  · have hbaked := baked_alike h ht (List.mem_of_find?_eq_some hplan) row property
    rw [hview, hview', ok_bind, ok_bind]
    unfold value
    rw [hbaked, h.overrides, ht.table]

/-- The search for an identifier takes the same way in tables that are alike. -/
theorem find_alike (hidentifier : c.registry.identifierProperty = c'.registry.identifierProperty)
    (ht : t.Alike t') (hmem : t.plan ∈ c.registry.tables) (identifier : String) :
    c.find t identifier = c'.find t' identifier := by
  have hbaked := baked_alike h ht hmem
  have hbetween (low high : Nat) :
      c.findBetween t identifier low high = c'.findBetween t' identifier low high := by
    induction hsize : high - low using Nat.strongRecOn generalizing low high with
    | ind size ih =>
      unfold findBetween
      by_cases hlt : low < high
      · rw [dif_pos hlt, dif_pos hlt]
        dsimp only
        rw [hbaked, hidentifier, ht.table, ih (high - (low + (high - low) / 2 + 1)) (by omega) _ _ rfl,
          ih (low + (high - low) / 2 - low) (by omega) _ _ rfl]
      · rw [dif_neg hlt, dif_neg hlt]
  unfold find
  rw [hbetween, ht.table]

/-- **Every record is found alike** if the same property is the identifier. -/
theorem lookup_alike (hidentifier : c.registry.identifierProperty = c'.registry.identifierProperty)
    (recordType identifier : String) :
    c.lookup recordType identifier = c'.lookup recordType identifier := by
  unfold lookup
  obtain ⟨e, hview, hview'⟩ | ⟨t, t', hview, hview', ht, hplan, -⟩ := view_alike h recordType
  · rw [hview, hview', error_bind, error_bind]
  · rw [hview, hview', ok_bind, ok_bind]
    exact find_alike h hidentifier ht (List.mem_of_find?_eq_some hplan) identifier

end Alike

/-- What is no container of one registry is none of the other, for the same reason. -/
theorem ofPacked_alike (packing : Packing) {r r' : Registry} (h : r.StoresAlike r')
    (data : List UInt8) :
    ofPacked packing r' data = (ofPacked packing r data).map fun o => { o with registry := r' } := by
  have hcheck : Container.Table.check r' = Container.Table.check r := by
    funext t
    unfold Container.Table.check
    rw [h.layout]
  unfold ofPacked
  cases packing.unpack? data with
  | none => rfl
  | some k =>
    dsimp only
    unfold ofContainer
    rw [hcheck, h.fingerprint]
    cases k.header.check with
    | error e => rfl
    | ok u =>
      rw [ok_bind, ok_bind]
      cases (Checkpoints.verifyData r'.fingerprint (some k.header.fingerprint)).mapError
          ContainerError.incompatible with
      | error e => rfl
      | ok u =>
        rw [ok_bind, ok_bind]
        cases k.tables.forM (Container.Table.check r) <;> rfl

end OpenContainer

/-! ### Compatible registries -/

open OpenContainer

/-- What containers are under two registries, of which the first may have baked them. -/
structure Registry.Compatible (r r' : Registry) : Prop where
  /-- The layout is the same. -/
  layout : r'.layout = r.layout
  /-- The storage plans are the same, but for what is an identifier. -/
  stored : r'.tables.map TablePlan.stored = r.tables.map TablePlan.stored
  tables : r'.identifierProperty = r.identifierProperty → r'.tables = r.tables
  /-- Both open the same containers, and refuse the others for the same reasons. -/
  opens : ∀ (packing : Packing) data, ofPacked packing r' data =
    (ofPacked packing r data).map fun o => { o with registry := r' }
  /-- A container that one has baked opens under the other. -/
  baked : ∀ (packing : Packing) c k, bake r c = .ok k → r.WidthsFit → k.RowsFit →
    ofPacked packing r' (packing.pack k) = .ok ⟨r', k, .empty⟩
  /-- Every property of every row has the same value. -/
  get : ∀ k o table row property,
    OpenContainer.get ⟨r', k, o⟩ table row property = OpenContainer.get ⟨r, k, o⟩ table row property
  /-- The same records are found, if they have the same identifier property. -/
  lookup : r'.identifierProperty = r.identifierProperty → ∀ k o recordType identifier,
    OpenContainer.lookup ⟨r', k, o⟩ recordType identifier =
      OpenContainer.lookup ⟨r, k, o⟩ recordType identifier

namespace Registration

/-- **Registries of one stream are compatible.** -/
theorem compatible_of_stream {a a' : Registration} {options options' : Options} {r r' : Registry}
    (h : a.build options = .ok r) (h' : a'.build options' = .ok r') {bytes : List UInt8}
    (hbytes : Schema.stream a.declarations options = .ok bytes)
    (hbytes' : Schema.stream a'.declarations options' = .ok bytes)
    (hsize : bytes.length < 2 ^ 64) : r.Compatible r' := by
  obtain ⟨closed, hr⟩ := exists_yields_of_build h
  obtain ⟨closed', hr'⟩ := exists_yields_of_build h'
  have hstream : Stream.schema closed a.declarations.enums = bytes := by
    unfold Schema.stream at hbytes
    rw [hr.closures] at hbytes
    exact Except.ok.inj hbytes
  have hstream' : Stream.schema closed' a'.declarations.enums = bytes := by
    unfold Schema.stream at hbytes'
    rw [hr'.closures] at hbytes'
    exact Except.ok.inj hbytes'
  have halike := storesAlike hr hr' (by rw [hstream]; exact hsize) (hstream.trans hstream'.symm)
  -- opened over the same bytes, the two containers are alike
  have hcontainers (k : Container) (o : Overrides) :
      OpenContainer.Alike ⟨r, k, o⟩ ⟨r', k, o⟩ := ⟨halike, rfl, rfl⟩
  constructor
  case layout => exact halike.layout.symm
  case stored => exact halike.stored.symm
  case tables => exact fun hidentifier => (halike.tables hidentifier.symm).symm
  case opens => exact fun packing data => ofPacked_alike packing halike data
  case baked =>
    intro packing c k hbake hwidths hrows
    rw [ofPacked_alike packing halike,
      ofPacked_bake packing (isLaidOut_of_build h) hwidths hbake hrows]
    rfl
  case get => exact fun k o table row property => (get_alike (hcontainers k o) ..).symm
  case lookup =>
    exact fun hidentifier k o recordType identifier =>
      (lookup_alike (hcontainers k o) hidentifier.symm ..).symm

/-! ### Another identifier property -/

/-- Items that have a key besides their identifier. -/
def keyedItems : Registration where
  declarations.types :=
    [⟨"Item", .record, [], [⟨"Identifier", "string", false⟩, ⟨"Key", "string", false⟩]⟩]
  declarations.enums := []
  errors := []

/-- The registry of the items, with the property of a name as the identifier. -/
def keyedRegistry (identifierProperty : String) : Registry :=
  ((keyedItems.build ⟨identifierProperty, false⟩).toOption).getD default

/-- One coin. -/
def keyedCatalog : Catalog :=
  .ofList [("Item", .ofList "Item" [⟨⟨"g1"⟩, "Coin", "", none, .ofList [("Key", .text "K")]⟩])]

/-- The stream of the items, whatever their identifier is. -/
def keyedStream : List UInt8 :=
  ((Schema.stream keyedItems.declarations .standard).toOption).getD []

theorem compatible_of_stream_keyedItems :
    keyedItems.build ⟨"Identifier", false⟩ = .ok (keyedRegistry "Identifier") ∧
      keyedItems.build ⟨"Key", false⟩ = .ok (keyedRegistry "Key") ∧
      Schema.stream keyedItems.declarations ⟨"Identifier", false⟩ = .ok keyedStream ∧
      Schema.stream keyedItems.declarations ⟨"Key", false⟩ = .ok keyedStream ∧
      keyedStream.length < 2 ^ 64 ∧
      (keyedRegistry "Identifier").Compatible (keyedRegistry "Key") := by
  have h : keyedItems.build ⟨"Identifier", false⟩ = .ok (keyedRegistry "Identifier") := by cbv
  have h' : keyedItems.build ⟨"Key", false⟩ = .ok (keyedRegistry "Key") := by cbv
  have hbytes : Schema.stream keyedItems.declarations ⟨"Identifier", false⟩ = .ok keyedStream := by
    cbv
  have hbytes' : Schema.stream keyedItems.declarations ⟨"Key", false⟩ = .ok keyedStream := by cbv
  have hsize : keyedStream.length < 2 ^ 64 := by
    have hlength : keyedStream.length = 121 := by cbv
    omega
  exact ⟨h, h', hbytes, hbytes', hsize, compatible_of_stream h h' hbytes hbytes' hsize⟩

/-- **The identifier property is not told.**  The coin is found by its identifier, but not under a
registry of the same stream that takes the key for the identifier. -/
theorem exists_lookup_ne :
    ∃ r r' k, keyedItems.build ⟨"Identifier", false⟩ = .ok r ∧
      keyedItems.build ⟨"Key", false⟩ = .ok r' ∧
      Schema.stream keyedItems.declarations ⟨"Identifier", false⟩ =
        Schema.stream keyedItems.declarations ⟨"Key", false⟩ ∧
      r.tables ≠ r'.tables ∧ bake r keyedCatalog = .ok k ∧
      (∀ packing : Packing, ofPacked packing r (packing.pack k) = .ok ⟨r, k, .empty⟩ ∧
        ofPacked packing r' (packing.pack k) = .ok ⟨r', k, .empty⟩) ∧
      OpenContainer.lookup ⟨r, k, .empty⟩ "Item" "Coin" = .ok (some 0) ∧
      OpenContainer.lookup ⟨r', k, .empty⟩ "Item" "Coin" = .ok none := by
  refine ⟨keyedRegistry "Identifier", keyedRegistry "Key",
    ((bake (keyedRegistry "Identifier") keyedCatalog).toOption).getD default, by cbv, by cbv, by cbv,
    ?_, by cbv, fun packing => ⟨?_, ?_⟩, by cbv, by cbv⟩
  · refine ne_of_apply_ne (List.map fun t => t.properties.map (·.property.isIdentifier)) ?_
    have hidentifier : (keyedRegistry "Identifier").tables.map
        (fun t => t.properties.map (·.property.isIdentifier)) = [[true, false]] := by cbv
    have hkey : (keyedRegistry "Key").tables.map
        (fun t => t.properties.map (·.property.isIdentifier)) = [[false, true]] := by cbv
    rw [hidentifier, hkey]
    decide
  · rw [ofPacked_pack]
    cbv
  · rw [ofPacked_pack]
    cbv

end Registration

end RecordTables
