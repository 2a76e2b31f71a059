import RecordTables.Proofs.Fingerprint
import RecordTables.Proofs.NameMap
import RecordTables.Proofs.Registration
import RecordTables.Proofs.Schema.ListFlag
import RecordTables.Proofs.Text.Basic

/-!
# A fingerprint notices a byte

Two streams that differ in one byte (`DifferInOneByte`) never have one fingerprint.  A step of the
hash is one-to-one in the hash so far and in the byte, since the factor is odd and so has an inverse
(`Fingerprint.step_left_inj`, `Fingerprint.step_right_inj`).  So the two hashes differ behind the byte,
and what both streams have in common from there on keeps them apart (`Fingerprint.absorb_inj`).

A list flag is one byte in the stream of a schema, and a changed character of a cell is one in the
stream of the cells, if the cell keeps its length.
-/

namespace RecordTables

open Schema

/-- Two lists of bytes that are the same but for one byte. -/
inductive DifferInOneByte : List UInt8 → List UInt8 → Prop where
  | intro (front back : List UInt8) {x y : UInt8} (h : x ≠ y) :
    DifferInOneByte (front ++ x :: back) (front ++ y :: back)

namespace DifferInOneByte

variable {s t : List UInt8}

theorem length_eq (h : DifferInOneByte s t) : s.length = t.length := by
  cases h with
  | intro front back h => rw [List.length_append, List.length_append, List.length_cons,
      List.length_cons]

/-- What stands around two lists on both sides is no difference. -/
theorem around (h : DifferInOneByte s t) (before after : List UInt8) :
    DifferInOneByte (before ++ s ++ after) (before ++ t ++ after) := by
  cases h with
  | intro front back h =>
    have harrange (x : UInt8) : before ++ (front ++ x :: back) ++ after =
        (before ++ front) ++ x :: (back ++ after) := by simp
    rw [harrange, harrange]
    exact .intro _ _ h

end DifferInOneByte

/-! ### The hash -/

namespace Fingerprint

/-- What undoes the multiplication with the factor of a step. -/
def primeInverse : UInt64 := 0xce965057aff6957b

theorem prime_mul_primeInverse : prime * primeInverse = 1 := by decide

theorem mul_prime_inj {m n : UInt64} : m * prime = n * prime ↔ m = n := by
  constructor
  · intro h
    calc m = m * prime * primeInverse := by
          rw [UInt64.mul_assoc, prime_mul_primeInverse, UInt64.mul_one]
      _ = n * prime * primeInverse := by rw [h]
      _ = n := by rw [UInt64.mul_assoc, prime_mul_primeInverse, UInt64.mul_one]
  · rintro rfl
    rfl

/-- A step tells the hash before it. -/
theorem step_left_inj {h h' : UInt64} (b : UInt8) : step h b = step h' b ↔ h = h' := by
  unfold step
  rw [mul_prime_inj, UInt64.xor_left_inj]

/-- A step tells its byte. -/
theorem step_right_inj (h : UInt64) {b b' : UInt8} : step h b = step h b' ↔ b = b' := by
  unfold step
  rw [mul_prime_inj, UInt64.xor_right_inj, UInt8.toUInt64_inj]

/-- **A run of steps tells the hash before it.** -/
theorem absorb_inj {h h' : UInt64} (s : List UInt8) : absorb h s = absorb h' s ↔ h = h' := by
  induction s generalizing h h' with
  | nil => exact Iff.rfl
  | cons b s ih => exact ih.trans (step_left_inj b)

/-- **A changed byte shows in the hash**, from whatever hash both start. -/
theorem absorb_ne {s t : List UInt8} (hst : DifferInOneByte s t) (h : UInt64) :
    absorb h s ≠ absorb h t := by
  cases hst with
  | intro front back hne =>
    rw [absorb_append, absorb_append]
    intro hsame
    exact hne ((step_right_inj _).1 ((absorb_inj back).1 hsame))

theorem ofStream_ne {s t : List UInt8} (h : DifferInOneByte s t) : ofStream s ≠ ofStream t :=
  fun hsame => absorb_ne h offsetBasis (Fingerprint.mk.inj hsame)

theorem text_inj {f g : Fingerprint} (h : f.text = g.text) : f = g := by
  have hread := f.ofText_text
  rw [h, g.ofText_text] at hread
  exact (Except.ok.inj hread).symm

end Fingerprint

/-! ### Schemas -/

namespace Stream

theorem differ_property (p : PropertyDeclaration) :
    DifferInOneByte (property p) (property p.flipped) := by
  have hflag : (if p.isList then 1 else 0 : UInt8) ≠ if !p.isList then 1 else 0 := by
    cases p.isList <;> decide
  exact .intro (text p.name ++ text p.typeTag) [] hflag

/-- A list flag of one property is one byte of the stream of a schema. -/
theorem differ_schema (first rest : List (TypeDeclaration × List PropertyDeclaration))
    (enums : List EnumDeclaration) (owner : TypeDeclaration) (own : List PropertyDeclaration)
    (front back : List PropertyDeclaration) (p : PropertyDeclaration) :
    DifferInOneByte (schema (first ++ (owner, front ++ p :: back) :: rest) enums)
      (schema (first ++ ({ owner with properties := own }, front ++ p.flipped :: back) :: rest)
        enums) := by
  have harrange (p : PropertyDeclaration) (own : List PropertyDeclaration) :
      schema (first ++ ({ owner with properties := own }, front ++ p :: back) :: rest) enums =
        (salt ++ first.flatMap (fun t => type t.1.name t.1.kind t.2) ++
          (text owner.name ++ text owner.kind.tag ++ count (front.length + (back.length + 1)) ++
            front.flatMap property)) ++ property p ++
        (back.flatMap property ++ rest.flatMap (fun t => type t.1.name t.1.kind t.2) ++
          enums.flatMap enum) := by
    unfold schema type
    simp only [List.flatMap_append, List.flatMap_cons, List.length_append, List.length_cons,
      List.append_assoc]
  rw [harrange, harrange]
  exact (differ_property p).around _ _

end Stream

/-- **A flipped list flag shows in the fingerprint**, if the property occurs in one type. -/
theorem Schema.fingerprint_flipped_ne {d : Declarations} {options : Options}
    (place : PropertyPlace d) (hnames : (d.types.map (·.name)).Nodup)
    (honly : ∀ t ∈ d.types, place.OccursIn t → t = place.owner) {f f' : Fingerprint}
    (h : fingerprint d options = .ok f) (h' : fingerprint place.flipped options = .ok f') :
    f ≠ f' := by
  obtain ⟨closed, hclosed, rfl⟩ := map_eq_ok.1 h
  obtain ⟨closed', hclosed', rfl⟩ := map_eq_ok.1 h'
  obtain ⟨first, inFront, rest, rfl, rfl⟩ := place.closures_flipped hnames honly hclosed hclosed'
  exact Fingerprint.ofStream_ne (Stream.differ_schema first rest d.enums place.owner _ inFront
    place.back place.property)

/-! ### Cells -/

theorem NameMap.insertEntry_append_cons {α : Type} {front back : List (String × α)} {name : String}
    {x y : α} (hsorted : (front ++ (name, x) :: back).Pairwise fun a b => a.1 < b.1) :
    insertEntry name y (front ++ (name, x) :: back) = front ++ (name, y) :: back := by
  induction front with
  | nil =>
    rw [List.nil_append, insertEntry, if_neg (String.lt_irrefl name), if_pos rfl, List.nil_append]
  | cons e front ih =>
    obtain ⟨hlt, hsorted⟩ := List.pairwise_cons.1 hsorted
    have hfirst : e.1 < name := hlt _ (List.mem_append_right _ List.mem_cons_self)
    rw [List.cons_append, insertEntry, if_neg (String.lt_asymm hfirst),
      if_neg (Ne.symm (Std.ne_of_lt hfirst)), ih hsorted, List.cons_append]

/-- Cells that differ in one place of one cell are one byte apart in their stream. -/
theorem Stream.differ_cells {m m' : NameMap String} {name s t : String}
    (hs : m.find? name = some s) (ht : m'.find? name = some t)
    (hothers : ∀ other, other ≠ name → m.find? other = m'.find? other)
    (hst : DifferInOneByte (Text.utf8 s) (Text.utf8 t)) :
    DifferInOneByte (cells m) (cells m') := by
  -- the second cells are the first ones with one text replaced
  have hinsert : m' = m.insert name t := by
    refine NameMap.ext_find? fun other => ?_
    rw [NameMap.find?_insert]
    split_ifs with hother
    · rw [← hother, ht]
    · exact (hothers other (Ne.symm hother)).symm
  obtain ⟨front, back, hentries⟩ := List.append_of_mem (NameMap.mem_entries_of_find? hs)
  have hsorted := m.sorted
  rw [hentries] at hsorted
  have hentries' : m'.entries = front ++ (name, t) :: back := by
    rw [hinsert, NameMap.insert]
    simp only [hentries]
    exact NameMap.insertEntry_append_cons hsorted
  -- the text of the cell stands between what is in front of it and what is behind it
  have harrange (s : String) : (front ++ (name, s) :: back).flatMap (fun e => text e.1 ++ text e.2) =
      (front.flatMap (fun e => text e.1 ++ text e.2) ++ text name ++
        count (Text.utf8 s).length) ++ Text.utf8 s ++
          back.flatMap fun e => text e.1 ++ text e.2 := by
    rw [List.flatMap_append, List.flatMap_cons]
    have htext : text s = count (Text.utf8 s).length ++ Text.utf8 s := rfl
    rw [htext]
    simp only [List.append_assoc]
  unfold cells
  rw [hentries, hentries', harrange, harrange, hst.length_eq]
  exact hst.around _ _

theorem contentHash_ne {m m' : NameMap String}
    (h : DifferInOneByte (Stream.cells m) (Stream.cells m')) : contentHash m ≠ contentHash m' :=
  fun hsame => Fingerprint.ofStream_ne h (Fingerprint.text_inj hsame)

/-! ### One byte -/

/-- **A change of one byte is noticed.**  From the same hash on, streams that differ in one byte have
different hashes.  So a schema gets another fingerprint when a property that occurs in one type is
turned into a list or from a list into a single value, and a row gets another hash when one cell keeps
its length and is changed in one byte. -/
theorem Fingerprint.notices_byte :
    (∀ (h : UInt64) (front back : List UInt8) (x y : UInt8), x ≠ y →
      absorb h (front ++ x :: back) ≠ absorb h (front ++ y :: back)) ∧
    (∀ (reg reg' : Registration) (options : Options) (r r' : Registry)
      (place : PropertyPlace reg.declarations), reg.IsRegistered →
      reg'.declarations = place.flipped →
      (∀ t ∈ reg.declarations.types, place.OccursIn t → t = place.owner) →
      reg.build options = .ok r → reg'.build options = .ok r' → r.fingerprint ≠ r'.fingerprint) ∧
    ∀ (row row' : Row) (m m' : NameMap String) (name s t : String),
      m.find? name = some s → m'.find? name = some t →
      (∀ other, other ≠ name → m.find? other = m'.find? other) →
      DifferInOneByte (Text.utf8 s) (Text.utf8 t) →
      (row.withCells m).contentHash ≠ (row'.withCells m').contentHash := by
  refine ⟨fun h front back x y hne => absorb_ne (.intro front back hne) h,
    fun reg reg' options r r' place hreg hflipped honly h h' => ?_,
    fun row row' m m' name s t hs ht hothers hst => ?_⟩
  · have hfingerprint' := Registration.fingerprint_of_build h'
    rw [hflipped] at hfingerprint'
    exact Schema.fingerprint_flipped_ne place hreg.names honly (Registration.fingerprint_of_build h)
      hfingerprint'
  · exact contentHash_ne (Stream.differ_cells hs ht hothers hst)

/-- What has a price. -/
def priced : TypeDeclaration := ⟨"Priced", .interface, [], [⟨"Price", "int", false⟩]⟩

/-- Shields, which have a price, and one rune. -/
def runicShield : TypeDeclaration := ⟨"Shield", .record, ["Priced"], [⟨"Rune", "int", false⟩]⟩

/-- Shields and what they take over. -/
def shields : Registration := (Registration.empty.addType priced).addType runicShield

/-- The rune of shields. -/
def shieldRune : PropertyPlace shields.declarations :=
  ⟨[priced], runicShield, [], [], ⟨"Rune", "int", false⟩, [], rfl, rfl⟩

/-- Shields with any number of runes. -/
def runicShields : Registration := ⟨shieldRune.flipped, []⟩

/-- A hash tells two bytes apart, the schema of shields with any number of runes from that of shields
with one, and the row of a shield with one rune from that with another. -/
theorem Fingerprint.notices_byte_shields :
    absorb offsetBasis ([1] ++ 2 :: [4]) ≠ absorb offsetBasis ([1] ++ 3 :: [4]) ∧
      shields.IsRegistered ∧ runicShields.declarations = shieldRune.flipped ∧
      (∀ t ∈ shields.declarations.types, shieldRune.OccursIn t → t = shieldRune.owner) ∧
      (∃ r r', shields.build .standard = .ok r ∧ runicShields.build .standard = .ok r' ∧
        r.fingerprint ≠ r'.fingerprint) ∧
      ((Row.new 2 "Oak" none).withCells ((NameMap.ofList [("Price", "10")]).insert "Rune"
          "7")).contentHash ≠
        ((Row.new 3 "Oak" none).withCells ((NameMap.ofList [("Price", "10")]).insert "Rune"
          "8")).contentHash := by
  obtain ⟨hbytes, hschemas, hrows⟩ := Fingerprint.notices_byte
  have hregistered : shields.IsRegistered := .addType _ (.addType _ .empty)
  have honly : ∀ t ∈ shields.declarations.types, shieldRune.OccursIn t → t = shieldRune.owner := by
    have htypes : shields.declarations.types = [priced, runicShield] := rfl
    rw [htypes]
    intro t ht hoccurs
    rcases List.mem_pair.1 ht with rfl | rfl
    -- a shield alone has the property, as the priced type takes nothing over
    · refine hoccurs.resolve_right fun hreach => ?_
      obtain ⟨parent, ⟨u, hu, hparent⟩, -⟩ := Relation.TransGen.head'_iff.1 hreach
      obtain rfl : priced = u := Option.some.inj hu
      cases hparent
    · rfl
  have hbuild : shields.build .standard =
      .ok (((shields.build .standard).toOption).getD default) := by cbv
  have hbuild' : runicShields.build .standard =
      .ok (((runicShields.build .standard).toOption).getD default) := by cbv
  refine ⟨hbytes _ _ _ _ _ (by decide), hregistered, rfl, honly, ⟨_, _, hbuild, hbuild', ?_⟩, ?_⟩
  · exact hschemas _ _ _ _ _ shieldRune hregistered rfl honly hbuild hbuild'
  · refine hrows _ _ _ _ "Rune" "7" "8" (by decide) (by decide) (fun other hother => ?_)
      (.intro [] [] (by decide : (0x37 : UInt8) ≠ 0x38))
    rw [NameMap.find?_insert, NameMap.find?_insert, if_neg (Ne.symm hother),
      if_neg (Ne.symm hother)]

end RecordTables
