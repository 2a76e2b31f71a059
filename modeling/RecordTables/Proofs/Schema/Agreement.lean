import RecordTables.Proofs.Registry
import RecordTables.Proofs.Schema.Resolution
import RecordTables.Proofs.Schema.Stream

/-!
# Registries of one stream

Two registries whose schemas feed the same stream have the same layout, whatever their options are
(`Registration.layout_agree`), and their storage plans store alike (`Registration.stored_tables_agree`):
they can only differ in which property is the identifier of its record.  With the same identifier
property they have the same storage plans (`Registration.tables_agree`).
-/

namespace RecordTables

open Schema

/-- The stream of declarations: what their fingerprint is the hash of. -/
def Schema.stream (d : Declarations) (options : Options) : Except SchemaError (List UInt8) :=
  (closures d options).map fun types => Stream.schema types d.enums

theorem Schema.fingerprint_eq_map_stream (d : Declarations) (options : Options) :
    fingerprint d options = (stream d options).map .ofStream := by
  unfold fingerprint stream
  cases closures d options <;> rfl

/-! ### What is stored -/

/-- The plan of a property as it is stored. -/
def PropertyPlan.stored (q : PropertyPlan) : PropertyPlan := { q with property := q.property.stored }

/-- A type with its properties as they are stored.  Only records have identifiers. -/
def ResolvedType.stored (t : ResolvedType) : ResolvedType :=
  if t.kind = .record then { t with properties := t.properties.map Property.stored } else t

/-- The plan of a table as it is stored. -/
def TablePlan.stored (t : TablePlan) : TablePlan :=
  if t.kind = .record then { t with properties := t.properties.map PropertyPlan.stored } else t

@[simp]
theorem ResolvedType.kind_stored (t : ResolvedType) : t.stored.kind = t.kind := by
  unfold stored
  split_ifs <;> rfl

@[simp]
theorem TablePlan.table_stored (t : TablePlan) : t.stored.table = t.table := by
  unfold stored
  split_ifs <;> rfl

@[simp]
theorem TablePlan.kind_stored (t : TablePlan) : t.stored.kind = t.kind := by
  unfold stored
  split_ifs <;> rfl

theorem TablePlan.stored_of_ne_record {t : TablePlan} (h : t.kind ≠ .record) : t.stored = t := if_neg h

/-- Properties that are stored alike are found under the same names. -/
theorem TablePlan.property?_stored {t t' : TablePlan} (h : t.stored = t'.stored) (name : String) :
    (t.property? name).map PropertyPlan.stored = (t'.property? name).map PropertyPlan.stored := by
  have hkind : t.kind = t'.kind := by rw [← kind_stored, h, kind_stored]
  by_cases hrecord : t.kind = .record
  · unfold stored at h
    rw [if_pos hrecord, if_pos (hkind.symm.trans hrecord), mk.injEq] at h
    have hfind := congrArg (List.find? fun q => q.property.name == name) h.2.2
    rw [List.find?_map, List.find?_map] at hfind
    exact hfind
  · rw [stored_of_ne_record hrecord, stored_of_ne_record (hkind ▸ hrecord)] at h
    rw [h]

/-- Plans that are stored alike are found under the same names. -/
theorem Registry.table?_stored {r r' : Registry}
    (h : r.tables.map TablePlan.stored = r'.tables.map TablePlan.stored) (name : String) :
    (r.table? name).map TablePlan.stored = (r'.table? name).map TablePlan.stored := by
  have hfind := congrArg (List.find? fun t => t.table == name) h
  rw [List.find?_map, List.find?_map] at hfind
  simp only [Function.comp_def, TablePlan.table_stored] at hfind
  exact hfind

/-- An identifier is planned like a single text. -/
theorem PropertyPlan.stored_ofProperty (d : Declarations) (table : String) (p : Property) :
    (ofProperty d table p).stored = ofProperty d table p.stored := by
  obtain ⟨name, shape⟩ := p
  cases shape <;> rfl

theorem Registration.stored_tablePlan (d : Declarations) (t : ResolvedType) :
    (tablePlan d t).stored = tablePlan d t.stored := by
  unfold tablePlan TablePlan.stored ResolvedType.stored
  split_ifs
  · rw [List.map_map, List.map_map]
    exact congrArg _ (List.map_congr_left fun p _ => PropertyPlan.stored_ofProperty d t.name p)
  · rfl

/-- A plan depends on the declarations only for the enums. -/
theorem PropertyPlan.ofProperty_agree {d d' : Declarations} (h : d.Agree d') :
    ofProperty d = ofProperty d' := by
  have hrepr : enumRepr d = enumRepr d' := by
    funext name
    unfold enumRepr
    rw [h.enum?]
  have hkind : fieldKind d = fieldKind d' := by
    funext vt
    unfold fieldKind
    rw [hrepr]
  funext table p
  unfold ofProperty fieldsOf prepareSingle prepareList inlineKind readOp
  rw [hrepr, hkind]

theorem Registration.tablePlan_agree {d d' : Declarations} (h : d.Agree d') :
    tablePlan d = tablePlan d' := by
  funext t
  unfold tablePlan
  rw [PropertyPlan.ofProperty_agree h]

theorem Registration.layoutSteps_stored (t : TablePlan) : layoutSteps t.stored = layoutSteps t := by
  unfold layoutSteps TablePlan.stored
  split_ifs
  · rw [List.flatMap_map]
    rfl
  · rfl

theorem Registration.layOut_stored (plans : List TablePlan) :
    layOut (plans.map TablePlan.stored) = layOut plans := by
  unfold layOut
  rw [List.flatMap_map]
  simp only [layoutSteps_stored]

/-! ### Types of one stream -/

/-- Lists that are related to lists of the same look have the same look. -/
theorem map_eq_of_forall₂ {α β γ δ : Type} {R R' : α → β → Prop} {f : α → γ} {g : β → δ}
    {xs xs' : List α} {ys ys' : List β} (h : List.Forall₂ R xs ys) (h' : List.Forall₂ R' xs' ys')
    (hxs : xs.map f = xs'.map f)
    (hg : ∀ x y x' y', R x y → R' x' y' → f x = f x' → g y = g y') : ys.map g = ys'.map g := by
  induction h generalizing xs' ys' with
  | nil =>
    obtain rfl := List.map_eq_nil_iff.1 hxs.symm
    cases h'
    rfl
  | cons hxy _ ih =>
    cases h' with
    | nil => cases hxs
    | cons hxy' hrest =>
      rw [List.map_cons, List.map_cons, List.cons.injEq] at hxs
      rw [List.map_cons, List.map_cons, hg _ _ _ _ hxy hxy' hxs.1, ih hrest hxs.2]

section Agreement

variable {a a' : Registration} {d d' : Declarations} {options options' : Options} {r r' : Registry}
  {closed closed' : List (TypeDeclaration × List PropertyDeclaration)}
  {c c' : TypeDeclaration × List PropertyDeclaration} {t t' : ResolvedType}

theorem Schema.agree_of_summary (h : closures d options = .ok closed)
    (h' : closures d' options' = .ok closed')
    (htypes : closed.map Stream.summary = closed'.map Stream.summary) (henums : d.enums = d'.enums) :
    d.Agree d' := by
  refine ⟨?_, henums⟩
  rw [← Registration.map_fst_of_closures h, ← Registration.map_fst_of_closures h', List.map_map,
    List.map_map]
  have hnames := congrArg (List.map fun t : Stream.TypeSummary => (t.1, t.2.1)) htypes
  rw [List.map_map, List.map_map] at hnames
  exact hnames

namespace Registration

/-- Types that enter a stream alike are resolved alike up to `g` if their properties are. -/
theorem ResolvesTo.agree {g : Property → Property} (h : ResolvesTo d options c t)
    (h' : ResolvesTo d' options' c' t') (hsummary : Stream.summary c = Stream.summary c')
    (hg : ∀ p q q', resolve d options c.1 p = .ok q → resolve d' options' c'.1 p = .ok q' →
      g q = g q') :
    { t with properties := t.properties.map g } = { t' with properties := t'.properties.map g } := by
  obtain ⟨hname, hkinds⟩ := Prod.mk.inj hsummary
  obtain ⟨hkind, hdeclarations⟩ := Prod.mk.inj hkinds
  have hproperties : t.properties.map g = t'.properties.map g :=
    map_eq_of_forall₂ h.properties h'.properties (congrArg (List.map id) hdeclarations) <| by
      intro p q p' q' hq hq' hp
      obtain rfl : p = p' := hp
      exact hg p q q' hq hq'
  rw [ResolvedType.mk.injEq]
  exact ⟨(h.name.trans hname).trans h'.name.symm, (h.kind.trans hkind).trans h'.kind.symm,
    (h.declarations.trans hdeclarations).trans h'.declarations.symm, hproperties⟩

/-- Types that enter a stream alike are the same, but for what is the identifier of a record. -/
theorem ResolvesTo.eq (hagree : d.Agree d')
    (hidentifier : c.1.kind = .record → options.identifierProperty = options'.identifierProperty)
    (h : ResolvesTo d options c t) (h' : ResolvesTo d' options' c' t')
    (hsummary : Stream.summary c = Stream.summary c') : t = t' := by
  obtain ⟨-, hkinds⟩ := Prod.mk.inj hsummary
  obtain ⟨hkind, -⟩ := Prod.mk.inj hkinds
  have hsame := h.agree (g := id) h' hsummary fun p q q' hq hq' =>
    Schema.resolve_agree hagree hkind hidentifier hq hq'
  rw [List.map_id, List.map_id] at hsame
  exact hsame

theorem ResolvesTo.stored_eq (hagree : d.Agree d') (h : ResolvesTo d options c t)
    (h' : ResolvesTo d' options' c' t') (hsummary : Stream.summary c = Stream.summary c') :
    t.stored = t'.stored := by
  by_cases hrecord : c.1.kind = .record
  · obtain ⟨-, hkinds⟩ := Prod.mk.inj hsummary
    obtain ⟨hkind, -⟩ := Prod.mk.inj hkinds
    have hsame := h.agree (g := Property.stored) h' hsummary fun p q q' hq hq' =>
      Schema.stored_agree hagree hq hq'
    unfold ResolvedType.stored
    rw [if_pos (h.kind.trans hrecord), if_pos (h'.kind.trans (hkind.symm.trans hrecord)), hsame]
  · rw [h.eq hagree (fun hkind => absurd hkind hrecord) h' hsummary]

variable (hr : a.Yields options closed r) (hr' : a'.Yields options' closed' r')
  (htypes : closed.map Stream.summary = closed'.map Stream.summary)
  (henums : a.declarations.enums = a'.declarations.enums)

include hr hr' htypes henums

theorem stored_tables_agree : r.tables.map TablePlan.stored = r'.tables.map TablePlan.stored := by
  have hagree := agree_of_summary hr.closures hr'.closures htypes henums
  have hstored := map_eq_of_forall₂ hr.resolves hr'.resolves htypes
    fun c t c' t' h h' hsummary => h.stored_eq hagree h' hsummary
  have htables (types : List ResolvedType) (d : Declarations) :
      ((types.filter fun t => t.kind != .interface).map (tablePlan d)).map TablePlan.stored =
        ((types.map ResolvedType.stored).filter fun t => t.kind != .interface).map
          (tablePlan d) := by
    rw [List.map_map, List.filter_map, List.map_map]
    simp only [Function.comp_def, ResolvedType.kind_stored, stored_tablePlan]
  rw [hr.tables, hr'.tables, htables, htables, hstored, tablePlan_agree hagree]

theorem tables_agree (hidentifier : options.identifierProperty = options'.identifierProperty) :
    r.tables = r'.tables := by
  have hagree := agree_of_summary hr.closures hr'.closures htypes henums
  have hsame := map_eq_of_forall₂ (g := id) hr.resolves hr'.resolves htypes
    fun c t c' t' h h' hsummary => h.eq hagree (fun _ => hidentifier) h' hsummary
  rw [List.map_id, List.map_id] at hsame
  rw [hr.tables, hr'.tables, hsame, tablePlan_agree hagree]

theorem layout_agree : r.layout = r'.layout := by
  have hlayout := congrArg layOut (stored_tables_agree hr hr' htypes henums)
  rw [layOut_stored, layOut_stored, hr.layout, hr'.layout] at hlayout
  exact Except.ok.inj hlayout

end Registration

end Agreement

end RecordTables
