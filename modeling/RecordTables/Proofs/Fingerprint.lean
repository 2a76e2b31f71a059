import RecordTables.Proofs.Schema.Agreement
import RecordTables.Row

/-!
# What fingerprints are the hashes of

A fingerprint is the hash of a stream of bytes, and two streams are equal only if they stand for the
same: two schemas of one stream have the same types with the same effective properties and the same
enums, and two maps of cells of one stream are the same map (`Stream.unambiguous`).  A registry that
was built has the fingerprint that is computed from its declarations without building it.

What enters the stream of a schema is less than its declarations: from whom a type takes over a
property does not show, nor do the options under which it was resolved.  So the streams of schemas
are compared up to `Stream.summary`.
-/

namespace RecordTables

open Schema

namespace Stream

/-! ### Cells -/

/-- The lengths of the names and of the cells fit. -/
def CellsFit (cells : NameMap String) : Prop :=
  ∀ e ∈ cells.entries, TextFits e.1 ∧ TextFits e.2

/-- **The stream tells the cells.** -/
theorem cells_inj {m m' : NameMap String} (hfits : CellsFit m) (hfits' : CellsFit m')
    (h : cells m = cells m') : m = m' := by
  have hentry : Separates (fun e : String × String => TextFits e.1 ∧ TextFits e.2)
      fun e => text e.1 ++ text e.2 := Separates.append separates_text separates_text
  have hentries : m.entries = m'.entries :=
    Separates.flatMap_inj_of_ne_nil hentry
      (fun e => List.append_ne_nil_of_left_ne_nil (text_ne_nil e.1) _) hfits hfits' h
  obtain ⟨entries, sorted⟩ := m
  obtain ⟨entries', sorted'⟩ := m'
  obtain rfl : entries = entries' := hentries
  rfl

end Stream

/-! ### Schemas -/

section Schemas

variable {d d' : Declarations} {options options' : Options}
  {closed closed' : List (TypeDeclaration × List PropertyDeclaration)}

theorem Schema.stream_of_closures (h : closures d options = .ok closed) :
    stream d options = .ok (Stream.schema closed d.enums) := by
  unfold stream
  rw [h]
  rfl

/-- Declarations have one stream if and only if their types and enums are the same as far as the
stream shows them. -/
theorem Schema.stream_eq_iff (h : closures d options = .ok closed)
    (h' : closures d' options' = .ok closed') (hfits : Stream.SchemaFits closed d.enums)
    (hfits' : Stream.SchemaFits closed' d'.enums) :
    stream d options = stream d' options' ↔
      closed.map Stream.summary = closed'.map Stream.summary ∧ d.enums = d'.enums := by
  rw [stream_of_closures h, stream_of_closures h', Except.ok.injEq]
  exact ⟨Stream.summary_eq_of_schema hfits hfits',
    fun hsame => Stream.schema_eq_of_summary hsame.1 hsame.2⟩

end Schemas

/-- A registry has the fingerprint of its declarations. -/
theorem Registration.fingerprint_of_build {reg : Registration} {options : Options} {r : Registry}
    (h : reg.build options = .ok r) :
    Schema.fingerprint reg.declarations options = .ok r.fingerprint := by
  obtain ⟨closed, hr⟩ := exists_yields_of_build h
  rw [fingerprint_eq_map_stream, stream_of_closures hr.closures, hr.fingerprint]
  rfl

/-- **Streams are unambiguous.**  What the fingerprint of declarations is the hash of tells the
types with their names, kinds and effective properties and the enums with their members, each in
their order; what the hash of cells is made from tells the cells; and the fingerprint of a registry
is that of the declarations and options it was built from.  The condition on streams is that the
lengths that they tell fit their eight bytes. -/
theorem Stream.unambiguous :
    (∀ (d d' : Declarations) (options options' : Options)
      (closed closed' : List (TypeDeclaration × List PropertyDeclaration)),
      closures d options = .ok closed → closures d' options' = .ok closed' →
      SchemaFits closed d.enums → SchemaFits closed' d'.enums →
        Schema.fingerprint d options = (Schema.stream d options).map .ofStream ∧
        (Schema.stream d options = Schema.stream d' options' ↔
          closed.map summary = closed'.map summary ∧ d.enums = d'.enums)) ∧
    (∀ m m' : NameMap String, CellsFit m → CellsFit m' →
      contentHash m = (Fingerprint.ofStream (cells m)).text ∧ (cells m = cells m' ↔ m = m')) ∧
    ∀ (reg : Registration) (options : Options) (r : Registry), reg.build options = .ok r →
      Schema.fingerprint reg.declarations options = .ok r.fingerprint ∧
        Schema.fingerprint r.declarations r.options = .ok r.fingerprint := by
  refine ⟨fun d d' options options' closed closed' h h' hfits hfits' => ?_,
    fun m m' hfits hfits' => ?_, fun reg options r h => ?_⟩
  · exact ⟨fingerprint_eq_map_stream d options, stream_eq_iff h h' hfits hfits'⟩
  · exact ⟨rfl, cells_inj hfits hfits', fun hsame => hsame ▸ rfl⟩
  · obtain ⟨closed, hr⟩ := Registration.exists_yields_of_build h
    have hfingerprint := Registration.fingerprint_of_build h
    rw [hr.declarations, hr.options]
    exact ⟨hfingerprint, hfingerprint⟩

/-! ### Swords -/

/-- Swords that take over their price from whatever is priced. -/
def pricedSwords : Registration where
  declarations.types := [⟨"Priced", .interface, [], [⟨"Price", "int", false⟩]⟩,
    ⟨"Sword", .record, ["Priced"], []⟩]
  declarations.enums := [⟨"Grade", .u8, [⟨"Plain", 0⟩]⟩]
  errors := []

/-- Swords with a key and a price of their own. -/
def keyedSwords : Registration where
  declarations.types := [⟨"Priced", .interface, [], [⟨"Price", "int", false⟩]⟩,
    ⟨"Sword", .record, [], [⟨"Identifier", "string", false⟩, ⟨"Price", "int", false⟩]⟩]
  declarations.enums := [⟨"Grade", .u8, [⟨"Plain", 0⟩]⟩]
  errors := []

/-- The types with their effective properties. -/
def Registration.closedTypes (reg : Registration) :
    List (TypeDeclaration × List PropertyDeclaration) :=
  ((closures reg.declarations .standard).toOption).getD []

set_option maxRecDepth 20000 in
/-- The two declarations of swords have one stream, so they have the same types; cells are told
apart although their names and texts say the same one after the other. -/
theorem Stream.unambiguous_swords :
    pricedSwords.declarations ≠ keyedSwords.declarations ∧
      closures pricedSwords.declarations .standard = .ok pricedSwords.closedTypes ∧
      closures keyedSwords.declarations .standard = .ok keyedSwords.closedTypes ∧
      SchemaFits pricedSwords.closedTypes pricedSwords.declarations.enums ∧
      SchemaFits keyedSwords.closedTypes keyedSwords.declarations.enums ∧
      Schema.stream pricedSwords.declarations .standard =
        Schema.stream keyedSwords.declarations .standard ∧
      pricedSwords.closedTypes.map summary = keyedSwords.closedTypes.map summary ∧
      CellsFit (.ofList [("ab", "c")]) ∧ CellsFit (.ofList [("a", "bc")]) ∧
      cells (.ofList [("ab", "c")]) ≠ cells (.ofList [("a", "bc")]) ∧
      ∃ r, pricedSwords.build .standard = .ok r ∧
        Schema.fingerprint pricedSwords.declarations .standard = .ok r.fingerprint := by
  obtain ⟨hschemas, hcells, hbuilds⟩ := Stream.unambiguous
  have h : closures pricedSwords.declarations .standard = .ok pricedSwords.closedTypes := by cbv
  have h' : closures keyedSwords.declarations .standard = .ok keyedSwords.closedTypes := by cbv
  -- both streams are short, and they are the same
  have hfits : SchemaFits pricedSwords.closedTypes pricedSwords.declarations.enums := by
    have hlength :
        (schema pricedSwords.closedTypes pricedSwords.declarations.enums).length = 240 := by cbv
    exact schemaFits_of_length (by omega)
  have hfits' : SchemaFits keyedSwords.closedTypes keyedSwords.declarations.enums := by
    have hlength :
        (schema keyedSwords.closedTypes keyedSwords.declarations.enums).length = 240 := by cbv
    exact schemaFits_of_length (by omega)
  have hstream : Schema.stream pricedSwords.declarations .standard =
      Schema.stream keyedSwords.declarations .standard := by cbv
  have hab : CellsFit (.ofList [("ab", "c")]) := by
    unfold CellsFit TextFits
    decide
  have ha : CellsFit (.ofList [("a", "bc")]) := by
    unfold CellsFit TextFits
    decide
  have hbuild : pricedSwords.build .standard =
      .ok (((pricedSwords.build .standard).toOption).getD default) := by cbv
  refine ⟨by decide, h, h', hfits, hfits', hstream, ?_, hab, ha, ?_, _, hbuild,
    (hbuilds _ _ _ hbuild).1⟩
  -- one stream is that of one closed schema, so what the two closures say is the same
  · exact ((hschemas _ _ _ _ _ _ h h' hfits hfits').2.1 hstream).1
  · exact fun hsame => absurd ((hcells _ _ hab ha).2.1 hsame) (by decide)

end RecordTables
