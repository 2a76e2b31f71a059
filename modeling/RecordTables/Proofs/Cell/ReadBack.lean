import Mathlib.Data.List.TakeWhile
import RecordTables.Proofs.Cell.Canonical
import RecordTables.Proofs.Cell.Parts

/-!
# Cells read back

`Context.decode_encode`: what is written as the cell of a property reads back as the canonical form
of the value, if each leaf of it does by itself and the elements of its lists have components.

A value `ReadsBack` in an arrangement if the components that are written for it, in front of any
others, are read as its canonical form and leave the others.  `Context.readsBack_of_leaves` shows
this by induction on the leaves: a sub-structure reads its fields one after the other
(`Context.readFields_of_readsBack`), and a list in brackets is cut where its elements were joined,
whose components are cut in turn (`Context.readElement_of_readsBack`).
-/

namespace RecordTables.Cell

open Schema Text

/-! ### Trimming -/

theorem trim_brackets (cs : List Char) : trim ('[' :: cs ++ [']']) = '[' :: cs ++ [']'] := by
  have hopen : ¬ isBlank '[' = true := by decide
  have hclose : ¬ isBlank ']' = true := by decide
  unfold trim trimStart trimEnd
  rw [List.cons_append, List.dropWhile_cons_of_neg hopen, ← List.cons_append, List.reverse_append,
    List.reverse_singleton, List.singleton_append, List.dropWhile_cons_of_neg hclose,
    List.reverse_cons, List.reverse_reverse]

theorem bracketed?_brackets (cs : List Char) : Context.bracketed? ('[' :: cs ++ [']']) = some cs := by
  unfold Context.bracketed?
  show (if (cs ++ [']']).getLast? = some ']' then some (cs ++ [']']).dropLast else none) = some cs
  rw [if_pos (by simp), List.dropLast_concat]

theorem length_le_of_mem_joinWith {mark : Char} {parts : List (List Char)} {part : List Char}
    (h : part ∈ parts) : part.length ≤ (joinWith mark parts).length := by
  induction parts with
  | nil => cases h
  | cons first parts ih =>
    cases parts with
    | nil =>
      obtain rfl := List.mem_singleton.1 h
      rw [joinWith_singleton]
    | cons next parts =>
      rw [joinWith_cons_cons, List.length_append, List.length_cons]
      rcases List.mem_cons.1 h with rfl | h
      · omega
      · have := ih h
        omega

namespace Context

variable {ctx : Context}

/-! ### Components -/

/-- The components of a value are read as its canonical form, whatever comes after them.  The lists
among them are written with any fuel, and read with the length of their text. -/
def ReadsBack (ctx : Cell.Context) (outline : Outline) (v : Value) : Prop :=
  ∀ ⦃fuel fuel' : Nat⦄ ⦃parts : List (List Char)⦄ (whole : List Char) (rest : List (List Char)),
    ctx.writeParts (ctx.writeNested fuel) outline v = .ok parts →
    (∀ part ∈ parts, part.length ≤ fuel') →
      ctx.readParts (ctx.readNested fuel') whole outline (parts ++ rest) =
        .ok (v.canonical ctx.registry outline, rest)

theorem readComponents_append {kind : ScalarKind} {components : List Scalar}
    (h : ∀ s ∈ components, readScalar kind (trim s.text.toList) = .ok s) (whole : List Char)
    (rest : List (List Char)) :
    readComponents kind whole components.length
      (components.map (fun s => s.text.toList) ++ rest) = .ok (components, rest) := by
  induction components with
  | nil => rfl
  | cons s components ih =>
    have hs := h s List.mem_cons_self
    have hrest := ih fun t ht => h t (List.mem_cons_of_mem _ ht)
    rw [List.length_cons, readComponents, List.map_cons, List.cons_append]
    exact bind_eq_ok.2 ⟨_, rfl, bind_eq_ok.2 ⟨s, hs, bind_eq_ok.2 ⟨_, hrest, rfl⟩⟩⟩

/-- The fields of a sub-structure are read one after the other. -/
theorem readFields_of_readsBack {fuel fuel' : Nat} {fields : List (String × Outline)}
    {values : List (String × Value)} {parts : List (List Char)}
    (h : ∀ f ∈ fields, ctx.ReadsBack f.2 ((Value.field? values f.1).getD (ctx.absentField f.2)))
    (hparts : ctx.writeFields (ctx.writeNested fuel) fields values = .ok parts)
    (hfuel : ∀ part ∈ parts, part.length ≤ fuel') (whole : List Char) (rest : List (List Char)) :
    ctx.readFields (ctx.readNested fuel') whole fields (parts ++ rest) =
      .ok (fields.map fun f => (f.1, Value.canonicalField ctx.registry values f.1 f.2), rest) := by
  induction fields generalizing parts with
  | nil =>
    rw [writeFields] at hparts
    obtain rfl := Except.ok.inj hparts
    rfl
  | cons f fields ih =>
    rw [writeFields] at hparts
    obtain ⟨first, hfirst, hparts⟩ := bind_eq_ok.1 hparts
    obtain ⟨others, hothers, hparts⟩ := bind_eq_ok.1 hparts
    obtain rfl := Except.ok.inj hparts
    have hread := h f List.mem_cons_self whole (others ++ rest) hfirst
      fun part hpart => hfuel part (List.mem_append_left _ hpart)
    have hreads := ih (fun g hg => h g (List.mem_cons_of_mem _ hg)) hothers
      fun part hpart => hfuel part (List.mem_append_right _ hpart)
    rw [canonical_field?] at hread
    rw [readFields, List.append_assoc]
    exact bind_eq_ok.2 ⟨_, hread, bind_eq_ok.2 ⟨_, hreads, rfl⟩⟩

/-! ### Elements -/

theorem outline?_of_not_takesTuple {r : Registry} {vt : ValueType} (h : takesTuple vt = false) :
    r.outline? vt = some (.leaf vt) := by
  unfold Registry.outline?
  cases vt with
  | embedded name => cases h
  | composite shape => cases h
  | _ => cases r.types.length <;> rfl

theorem outline?_composite (r : Registry) (shape : CompositeShape) :
    r.outline? (.composite shape) = some (.composite shape) := by
  unfold Registry.outline? Registry.outlineWithin
  rfl

/-- A tuple reads back if its components do.  At least one component is needed: nothing between two
marks reads as one blank component. -/
theorem readOutline_of_readsBack {fuel fuel' : Nat} {vt : ValueType} {outline : Outline}
    {v : Value} {cs : List Char} (ho : ctx.registry.outline? vt = some outline)
    (harity : outline.arity ≠ 0) (h : ctx.ReadsBack outline v)
    (hcs : ctx.writeTuple (ctx.writeNested fuel) vt v = .ok cs) (hfuel : cs.length ≤ fuel') :
    ctx.readOutline (ctx.readNested fuel') outline cs =
      .ok (v.canonical ctx.registry outline) := by
  obtain ⟨o, parts, ho', hparts, rfl⟩ := writeTuple_eq_ok.1 hcs
  obtain rfl := Option.some.inj (ho.symm.trans ho')
  obtain ⟨hlength, htidy⟩ := writeParts_spec (tidy_of_writeNested fuel) outline v hparts
  have hne : parts ≠ [] := by
    rintro rfl
    exact harity hlength.symm
  have hread := h (joinWith componentMark parts) [] hparts
    fun part hpart => Nat.le_trans (length_le_of_mem_joinWith hpart) hfuel
  rw [List.append_nil] at hread
  unfold readOutline
  rw [splitTopLevel?_joinWith (by decide) (by decide) hne fun part hpart =>
    (htidy part hpart).component]
  dsimp only
  rw [if_pos hlength, hread]
  rfl

/-- **A value that stands alone.**  It is read as its canonical form, if its leaves and its
components are read back. -/
theorem readElement_of_readsBack {fuel fuel' : Nat} {vt : ValueType} {outline : Outline}
    {v : Value} {cs : List Char} (ho : ctx.registry.outline? vt = some outline)
    (harity : outline.arity ≠ 0) (hleaves : ctx.LeavesReadBack outline v)
    (h : ctx.ReadsBack outline v) (hcs : ctx.writeElement (ctx.writeNested fuel) vt v = .ok cs)
    (hfuel : cs.length ≤ fuel') :
    ctx.readElement (ctx.readNested fuel') vt cs = .ok (v.canonical ctx.registry outline) := by
  unfold writeElement at hcs
  cases htuple : takesTuple vt with
  | true =>
    rw [htuple, if_pos rfl] at hcs
    have hread := readOutline_of_readsBack ho harity h hcs hfuel
    cases vt with
    | embedded name =>
      unfold readElement
      rw [ho]
      exact hread
    | composite shape =>
      rw [outline?_composite] at ho
      obtain rfl := Option.some.inj ho
      exact hread
    | _ => cases htuple
  | false =>
    rw [htuple, if_neg Bool.false_ne_true] at hcs
    -- a value that is no tuple is a leaf, which reads back by assumption
    obtain rfl := Option.some.inj ((outline?_of_not_takesTuple htuple).symm.trans ho)
    cases hleaves with
    | leaf hleaf =>
      rw [Value.canonical_leaf, ← hleaf cs hcs]
      cases vt <;> first | rfl | cases htuple

theorem exists_outline_of_writeElement
    {nested : ValueType → Value → Except CellError (List Char)} {vt : ValueType} {v : Value}
    {cs : List Char} (h : ctx.writeElement nested vt v = .ok cs) :
    ∃ outline, ctx.registry.outline? vt = some outline := by
  unfold writeElement at h
  split at h
  · obtain ⟨outline, -, ho, -⟩ := writeTuple_eq_ok.1 h
    exact ⟨outline, ho⟩
  · next htuple => exact ⟨_, outline?_of_not_takesTuple (Bool.not_eq_true _ ▸ htuple)⟩

/-- What is written for an element inside a tuple is what is written for it alone. -/
theorem writeElement_of_writeNestedElement {nested : ValueType → Value → Except CellError (List Char)}
    {vt : ValueType} {v : Value} {cs : List Char}
    (h : ctx.writeNestedElement nested vt v = .ok cs) : ctx.writeElement nested vt v = .ok cs := by
  unfold writeNestedElement at h
  unfold writeElement
  split_ifs at h ⊢
  · exact h
  · obtain ⟨text, htext, h⟩ := bind_eq_ok.1 h
    obtain ⟨rfl, -⟩ := reserve_eq_ok.1 h
    exact htext

/-- The elements of a list, each read where it was written. -/
theorem mapM_readElement {write : Value → Except CellError (List Char)}
    {read : List Char → Except CellError Value} {canonical : Value → Value} {items : List Value}
    {parts : List (List Char)} (hparts : items.mapM write = .ok parts)
    (h : ∀ v ∈ items, ∀ part ∈ parts, write v = .ok part → read part = .ok (canonical v)) :
    parts.mapM read = .ok (items.map canonical) := by
  have hall := mapM_eq_ok.1 hparts
  clear hparts
  rw [mapM_eq_ok]
  induction hall with
  | nil => exact .nil
  | cons hv _ ih =>
    refine .cons (h _ List.mem_cons_self _ List.mem_cons_self hv) (ih fun v hv part hpart => ?_)
    exact h v (List.mem_cons_of_mem _ hv) part (List.mem_cons_of_mem _ hpart)

/-- **A list inside a tuple.**  It is read as the list of the canonical forms of its elements. -/
theorem readNested_of_readsBack {fuel fuel' : Nat} {vt : ValueType} {items : List Value}
    {cs : List Char}
    (hleaves : ∀ outline, ctx.registry.outline? vt = some outline →
      ∀ v ∈ items, ctx.LeavesReadBack outline v)
    (h : ∀ outline, ctx.registry.outline? vt = some outline →
      ∀ v ∈ items, ctx.ReadsBack outline v)
    (harity : items ≠ [] → ∀ outline, ctx.registry.outline? vt = some outline → outline.arity ≠ 0)
    (hcs : ctx.writeNested fuel vt (.list items) = .ok cs) (hfuel : cs.length ≤ fuel') :
    ctx.readNested fuel' vt cs = .ok ((Value.list items).canonical ctx.registry (.nested vt)) := by
  rcases writeNested_eq_ok hcs with ⟨hv, rfl⟩ | ⟨k, _, parts, rfl, ⟨⟩, hne, hparts, rfl, hblank⟩
  · cases hv
    rw [Value.canonical_list_nil]
    cases fuel' <;> rfl
  · -- the brackets are two of the characters that the fuel pays for
    obtain ⟨k', rfl⟩ : ∃ k', fuel' = k' + 1 :=
      Nat.exists_eq_succ_of_ne_zero (by rintro rfl; simp at hfuel)
    have hlength : (joinWith nestedMark parts).length ≤ k' := by
      simp only [List.cons_append, List.length_cons, List.length_append, List.length_nil] at hfuel
      omega
    obtain ⟨outline, ho⟩ : ∃ outline, ctx.registry.outline? vt = some outline := by
      obtain ⟨part, hpart⟩ := List.exists_mem_of_ne_nil parts hne
      obtain ⟨v, -, hv⟩ := exists_of_mem_mapM hparts hpart
      exact exists_outline_of_writeElement (writeElement_of_writeNestedElement hv)
    have hitems : items ≠ [] := by
      rintro rfl
      exact hne (List.forall₂_nil_left_iff.1 (mapM_eq_ok.1 hparts))
    have hpieces : ∀ part ∈ parts, IsPiece nestedMark part := by
      intro part hpart
      obtain ⟨v, -, hv⟩ := exists_of_mem_mapM hparts hpart
      exact (writeNestedElement_spec (tidy_of_writeNested k) hv).1
    have hread : parts.mapM (ctx.readElement (ctx.readNested k') vt) =
        .ok (items.map fun v => v.canonical ctx.registry outline) :=
      mapM_readElement hparts fun v hv part hpart hw =>
        readElement_of_readsBack ho (harity hitems outline ho) (hleaves outline ho v hv)
          (h outline ho v hv) (writeElement_of_writeNestedElement hw)
          (Nat.le_trans (length_le_of_mem_joinWith hpart) hlength)
    rw [Value.canonical_list ho, readNested]
    rw [trim_brackets, bracketed?_brackets, if_neg (by simp)]
    dsimp only
    rw [if_neg (by rw [hblank]; exact Bool.false_ne_true),
      splitTopLevel?_joinWith (by decide) (by decide) hne hpieces]
    dsimp only
    rw [hread]
    rfl

/-! ### Values -/

/-- **Leaves that are read back make a value that is.** -/
theorem readsBack_of_leaves {outline : Outline} {v : Value}
    (h : ctx.LeavesReadBack outline v) (hlists : ctx.registry.ListsHaveComponents outline) :
    ctx.ReadsBack outline v := by
  -- The induction follows the leaves rather than the outline: the outline of an element of a list
  -- is looked up in the registry and is no part of the outline of the list.
  induction h with
  | leaf h =>
    intro fuel fuel' parts whole rest hparts _
    rw [writeParts] at hparts
    obtain ⟨text, htext, hparts⟩ := bind_eq_ok.1 hparts
    obtain ⟨part, hpart, hparts⟩ := bind_eq_ok.1 hparts
    obtain rfl := Except.ok.inj hparts
    obtain ⟨rfl, -⟩ := reserve_eq_ok.1 hpart
    rw [Value.canonical_leaf, readParts]
    exact bind_eq_ok.2 ⟨_, rfl, bind_eq_ok.2 ⟨_, h text htext, rfl⟩⟩
  | @composite shape components h =>
    intro fuel fuel' parts whole rest hparts _
    rw [writeParts] at hparts
    split_ifs at hparts with hfits
    obtain rfl := Except.ok.inj hparts
    have hread := readComponents_append h whole rest
    rw [hfits.1] at hread
    rw [Value.canonical_composite, readParts]
    exact bind_eq_ok.2 ⟨_, hread, rfl⟩
  | @nested vt items hleaves ih =>
    intro fuel fuel' parts whole rest hparts hfuel
    rw [writeParts] at hparts
    obtain ⟨part, hpart, hparts⟩ := bind_eq_ok.1 hparts
    obtain rfl := Except.ok.inj hparts
    have hinner : ∀ outline, ctx.registry.outline? vt = some outline →
        ∀ v ∈ items, ctx.ReadsBack outline v := fun outline ho v hv =>
      ih outline ho v hv fun vt' element hholds => hlists vt' element (.element ho hholds)
    have hread := readNested_of_readsBack hleaves hinner
      (fun _ outline ho => hlists vt outline (.here vt) ho) hpart (hfuel part List.mem_cons_self)
    rw [readParts]
    exact bind_eq_ok.2 ⟨_, rfl, bind_eq_ok.2 ⟨_, hread, rfl⟩⟩
  | @struct name fields values hleaves ih =>
    intro fuel fuel' parts whole rest hparts hfuel
    rw [writeParts] at hparts
    have hfields : ∀ f ∈ fields,
        ctx.ReadsBack f.2 ((Value.field? values f.1).getD (ctx.absentField f.2)) := fun f hf =>
      ih f hf fun vt element hholds => hlists vt element (.field hf hholds)
    have hread := readFields_of_readsBack hfields hparts hfuel whole rest
    rw [readParts, Value.canonical]
    exact bind_eq_ok.2 ⟨_, hread, rfl⟩
  | noStruct =>
    intro fuel fuel' parts whole rest hparts _
    cases hparts

/-! ### Cells -/

theorem readLeaf_blank_eq_default {vt : ValueType} {cs : List Char} {v : Value}
    (htuple : vt.isTuple = true) (hleaf : takesTuple vt = false) (hblank : cs.all isBlank = true)
    (h : ctx.readLeaf vt cs = .ok v) : v = ctx.registry.defaultElement vt := by
  have htrim : trim cs = [] := by
    unfold trim trimStart
    rw [List.dropWhile_eq_nil_iff.2 (List.all_eq_true.1 hblank)]
    rfl
  cases vt with
  | recordRef target =>
    unfold readLeaf at h
    rw [htrim] at h
    exact (Except.ok.inj h).symm
  | embedded name => cases hleaf
  | composite shape => cases hleaf
  | _ => cases htuple

/-- A multi-component value is never blank: there is a comma in it. -/
theorem all_isBlank_composite {nested : ValueType → Value → Except CellError (List Char)}
    {shape : CompositeShape} {v : Value} {cs : List Char}
    (h : ctx.writeTuple nested (.composite shape) v = .ok cs) : cs.all isBlank = false := by
  obtain ⟨outline, parts, ho, hparts, rfl⟩ := writeTuple_eq_ok.1 h
  rw [outline?_composite] at ho
  obtain rfl := Option.some.inj ho
  cases v with
  | composite components =>
    rw [writeParts] at hparts
    split_ifs at hparts with hfits
    obtain rfl := Except.ok.inj hparts
    have hmany : 2 ≤ components.length := by
      rw [hfits.1]
      cases shape <;> decide
    match components, hmany with
    | _ :: _ :: rest, _ => exact all_isBlank_joinWith (by decide) _ _ _
  | _ => cases hparts

/-- A single value that is no sub-structure. -/
theorem decode_single {p : Property} {vt : ValueType} {fuel : Nat} {v : Value} {cs : List Char}
    (hshape : p.shape = .single vt) (hvt : ∀ name, vt ≠ .embedded name)
    (hleaves : ∀ outline, ctx.registry.outline? vt = some outline → ctx.LeavesReadBack outline v)
    (hcs : ctx.writeElement (ctx.writeNested fuel) vt v = .ok cs) :
    ctx.decode p (.ofList cs) = .ok (ctx.registry.canonicalCell p v) := by
  have hcell : ctx.registry.cellOutline? p = ctx.registry.outline? vt := by
    rw [Registry.cellOutline?, hshape]
  unfold decode
  rw [hshape, String.toList_ofList]
  dsimp only
  cases htuple : takesTuple vt with
  | true =>
    cases vt with
    | embedded name => exact absurd rfl (hvt name)
    | composite shape =>
      have ho := outline?_composite ctx.registry shape
      have hlists : ctx.registry.ListsHaveComponents (.composite shape) := fun _ _ h => nomatch h
      rw [Registry.canonicalCell_of_outline (hcell.trans ho),
        if_neg (by rw [all_isBlank_composite hcs, Bool.and_false]; exact Bool.false_ne_true)]
      exact readElement_of_readsBack ho (by cases shape <;> decide) (hleaves _ ho)
        (readsBack_of_leaves (hleaves _ ho) hlists) hcs (Nat.le_refl _)
    | _ => cases htuple
  | false =>
    have ho := outline?_of_not_takesTuple (r := ctx.registry) htuple
    have hlists : ctx.registry.ListsHaveComponents (.leaf vt) := fun _ _ h => nomatch h
    have hread := readElement_of_readsBack ho Nat.one_ne_zero (hleaves _ ho)
      (readsBack_of_leaves (hleaves _ ho) hlists) hcs (Nat.le_refl cs.length)
    rw [Value.canonical_leaf] at hread
    rw [Registry.canonicalCell_of_outline (hcell.trans ho), Value.canonical_leaf]
    split_ifs with hblank
    · -- a reference whose identifier would be blank does not read back, so there is none
      rw [Bool.and_eq_true] at hblank
      have hleaf : ctx.readLeaf vt cs = .ok v := by
        rw [← hread]
        cases vt <;> first | rfl | cases htuple
      rw [readLeaf_blank_eq_default hblank.1 htuple hblank.2 hleaf]
    · exact hread

/-- A single sub-structure.  A missing one is a blank cell, and no other is. -/
theorem decode_embedded_of_readsBack {p : Property} {name : String} {fuel : Nat} {v : Value}
    {cs : List Char} (hshape : p.shape = .single (.embedded name))
    (hback : ∀ outline, ctx.registry.cellOutline? p = some outline → ctx.ReadsBack outline v)
    (hcs : ctx.writeTuple (ctx.writeNested fuel) (.embedded name) v = .ok cs)
    (hblank : cs.all isBlank = false) :
    ctx.decode p (.ofList cs) = .ok (ctx.registry.canonicalCell p v) := by
  obtain ⟨outline, parts, ho, hparts, rfl⟩ := writeTuple_eq_ok.1 hcs
  have hcell : ctx.registry.cellOutline? p = some outline := by
    rw [Registry.cellOutline?, hshape]
    exact ho
  have harity : outline.arity ≠ 0 := by
    intro hzero
    have hlength := (writeParts_spec (tidy_of_writeNested fuel) outline v hparts).1
    rw [List.length_eq_zero_iff.1 (hlength.trans hzero)] at hblank
    cases hblank
  have hread := readOutline_of_readsBack ho harity (hback outline hcell) hcs (Nat.le_refl _)
  unfold decode
  rw [hshape, String.toList_ofList, Registry.canonicalCell_of_outline hcell]
  dsimp only
  rw [if_neg (by rw [hblank, Bool.and_false]; exact Bool.false_ne_true), readElement, ho]
  exact hread

theorem decode_single_embedded {p : Property} {name : String} {fuel : Nat} {v : Value}
    {cs : List Char} (hshape : p.shape = .single (.embedded name))
    (hlists : ∀ outline, ctx.registry.cellOutline? p = some outline →
      ctx.registry.ListsHaveComponents outline)
    (hleaves : ∀ outline, ctx.registry.cellOutline? p = some outline →
      ctx.LeavesReadBack outline v)
    (hcs : ctx.writeTuple (ctx.writeNested fuel) (.embedded name) v = .ok cs)
    (hblank : cs.all isBlank = false) :
    ctx.decode p (.ofList cs) = .ok (ctx.registry.canonicalCell p v) := by
  refine decode_embedded_of_readsBack hshape (fun outline ho => ?_) hcs hblank
  exact readsBack_of_leaves (hleaves outline ho) (hlists outline ho)

/-- A list.  Its elements are set apart by a mark that occurs in none of them. -/
theorem decode_list_of_readsBack {p : Property} {vt : ValueType} {fuel : Nat} {items : List Value}
    {parts : List (List Char)} (hshape : p.shape = .list vt)
    (harity : items ≠ [] → ∀ outline, ctx.registry.outline? vt = some outline → outline.arity ≠ 0)
    (hleaves : ctx.LeavesReadBack (.nested vt) (.list items))
    (hback : ∀ outline, ctx.registry.outline? vt = some outline →
      ∀ v ∈ items, ctx.ReadsBack outline v)
    (hparts : items.mapM (fun item =>
      (ctx.writeElement (ctx.writeNested fuel) vt item).bind (reserve [listMark vt])) = .ok parts)
    (hblank : items ≠ [] → (joinWith (listMark vt) parts).all isBlank = false) :
    ctx.decode p (.ofList (joinWith (listMark vt) parts)) =
      .ok (ctx.registry.canonicalCell p (.list items)) := by
  have hcell : ctx.registry.cellOutline? p = some (.nested vt) := by
    rw [Registry.cellOutline?, hshape]
  unfold decode
  rw [hshape, String.toList_ofList, Registry.canonicalCell_of_outline hcell]
  dsimp only
  cases items with
  | nil =>
    cases mapM_eq_ok.1 hparts
    rw [Value.canonical_list_nil]
    rfl
  | cons item items =>
    have hwritten : ∀ {v : Value} {part : List Char},
        (ctx.writeElement (ctx.writeNested fuel) vt v).bind (reserve [listMark vt]) = .ok part →
          ctx.writeElement (ctx.writeNested fuel) vt v = .ok part ∧ listMark vt ∉ part := by
      intro v part h
      obtain ⟨text, htext, h⟩ := bind_eq_ok.1 h
      obtain ⟨rfl, hmark⟩ := reserve_eq_ok.1 h
      exact ⟨htext, fun hmem => hmark _ hmem (List.mem_singleton_self _)⟩
    have hne : parts ≠ [] := by
      rintro rfl
      cases mapM_eq_ok.1 hparts
    obtain ⟨outline, ho⟩ : ∃ outline, ctx.registry.outline? vt = some outline := by
      obtain ⟨part, hpart⟩ := List.exists_mem_of_ne_nil parts hne
      obtain ⟨v, -, hv⟩ := exists_of_mem_mapM hparts hpart
      exact exists_outline_of_writeElement (hwritten hv).1
    have hitems : ∀ v ∈ item :: items, ctx.LeavesReadBack outline v := by
      cases hleaves with
      | nested h => exact h outline ho
    -- each part is read as its element
    have hread : parts.mapM
        (ctx.readElement (ctx.readNested (joinWith (listMark vt) parts).length) vt) =
          .ok ((item :: items).map fun v => v.canonical ctx.registry outline) :=
      mapM_readElement hparts fun v hv part hpart hw =>
        readElement_of_readsBack ho (harity (List.cons_ne_nil _ _) outline ho) (hitems v hv)
          (hback outline ho v hv) (hwritten hw).1 (length_le_of_mem_joinWith hpart)
    -- the cell is split where it was joined, since no part has the mark
    have hmark : ∀ part ∈ parts, listMark vt ∉ part := by
      intro part hpart
      obtain ⟨v, -, hv⟩ := exists_of_mem_mapM hparts hpart
      exact (hwritten hv).2
    rw [if_neg (by rw [hblank (List.cons_ne_nil _ _)]; exact Bool.false_ne_true),
      splitOn_joinWith hne hmark, hread, Value.canonical_list ho]
    rfl

theorem decode_list {p : Property} {vt : ValueType} {fuel : Nat} {items : List Value}
    {parts : List (List Char)} (hshape : p.shape = .list vt)
    (hlists : ctx.registry.ListsHaveComponents (.nested vt))
    (hleaves : ctx.LeavesReadBack (.nested vt) (.list items))
    (hparts : items.mapM (fun item =>
      (ctx.writeElement (ctx.writeNested fuel) vt item).bind (reserve [listMark vt])) = .ok parts)
    (hblank : items ≠ [] → (joinWith (listMark vt) parts).all isBlank = false) :
    ctx.decode p (.ofList (joinWith (listMark vt) parts)) =
      .ok (ctx.registry.canonicalCell p (.list items)) := by
  have hback : ∀ outline, ctx.registry.outline? vt = some outline →
      ∀ v ∈ items, ctx.ReadsBack outline v := by
    intro outline ho v hv
    refine readsBack_of_leaves ?_ fun vt' element hholds => hlists vt' element (.element ho hholds)
    cases hleaves with
    | nested h => exact h outline ho v hv
  exact decode_list_of_readsBack hshape (fun _ outline ho => hlists vt outline (.here vt) ho) hleaves
    hback hparts hblank

/-- **Cells read back.**  The cell that is written for a value of a property is read as the
canonical form of the value, if every leaf of the value is read back by itself and the elements of
all lists have components. -/
theorem decode_encode {p : Property} {v : Value} {cell : String} (hshape : p.shape ≠ .identifier)
    (hlists : ∀ outline, ctx.registry.cellOutline? p = some outline →
      ctx.registry.ListsHaveComponents outline)
    (hleaves : ∀ outline, ctx.registry.cellOutline? p = some outline →
      ctx.LeavesReadBack outline v)
    (h : ctx.encode p v = .ok cell) :
    ctx.decode p cell = .ok (ctx.registry.canonicalCell p v) := by
  obtain ⟨cs, hcs, rfl⟩ := map_eq_ok.1 h
  unfold encodeChars at hcs
  cases hp : p.shape with
  | identifier => exact absurd hp hshape
  | single vt =>
    have hcell : ctx.registry.cellOutline? p = ctx.registry.outline? vt := by
      rw [Registry.cellOutline?, hp]
    rw [hp] at hcs
    cases vt with
    | embedded name =>
      cases v with
      -- a missing sub-structure is a blank cell, which is read as its default
      | noStruct =>
        obtain rfl := Except.ok.inj hcs
        have hcanonical : ctx.registry.canonicalCell p .noStruct = .noStruct := by
          unfold Registry.canonicalCell
          split
          · exact Value.canonical_noStruct _ _
          · rfl
        rw [hcanonical, decode, hp]
        rfl
      | _ =>
        obtain ⟨text, htext, hcs⟩ := bind_eq_ok.1 hcs
        split_ifs at hcs with hblank
        obtain rfl := Except.ok.inj hcs
        exact decode_single_embedded hp hlists hleaves htext (by simpa using hblank)
    | _ => exact decode_single hp (by simp) (hcell ▸ hleaves) hcs
  | list vt =>
    have hcell : ctx.registry.cellOutline? p = some (.nested vt) := by
      rw [Registry.cellOutline?, hp]
    rw [hp] at hcs
    cases v with
    | list items =>
      obtain ⟨parts, hparts, hcs⟩ := bind_eq_ok.1 hcs
      dsimp only at hcs
      split_ifs at hcs with hblank
      obtain rfl := Except.ok.inj hcs
      exact decode_list hp (hlists _ hcell) (hleaves _ hcell) hparts
        fun hne => by simpa [hne] using hblank
    | _ => cases hcs

end Context

/-! ### A list of loot inside loot -/

/-- Loot has a name and drops other loot. -/
def lootOutline : Outline :=
  .struct "Loot" [("name", .leaf .string), ("drops", .nested (.embedded "Loot"))]

/-- A schema with loot only, and no records. -/
def lootContext : Context where
  registry := { (default : Registry) with
    types := [⟨"Loot", .struct, [],
      [⟨"name", .single .string⟩, ⟨"drops", .list (.embedded "Loot")⟩]⟩] }
  references := .none

/-- A chest with a coin, the fields in another order, one field unknown and one absent. -/
def chest : Value :=
  .struct [("drops", .list [.struct [("name", .text "coin"), ("weight", .text "1")]]),
    ("name", .text "chest")]

theorem outline?_loot : lootContext.registry.outline? (.embedded "Loot") = some lootOutline := rfl

/-- The only lists in loot are those of loot. -/
theorem eq_loot_of_holdsListOf {outline : Outline} {vt : ValueType}
    (h : lootContext.registry.HoldsListOf outline vt)
    (ho : outline = lootOutline ∨ outline = .nested (.embedded "Loot") ∨ outline = .leaf .string) :
    vt = .embedded "Loot" := by
  induction h with
  | here vt =>
    rcases ho with ho | ho | ho <;> cases ho
    rfl
  | field hf _ ih =>
    rcases ho with ho | ho | ho <;> cases ho
    rcases List.mem_pair.1 hf with rfl | rfl
    · exact ih (Or.inr (Or.inr rfl))
    · exact ih (Or.inr (Or.inl rfl))
  | element houter _ ih =>
    rcases ho with ho | ho | ho <;> cases ho
    exact ih (Or.inl (Option.some.inj houter).symm)

theorem listsHaveComponents_loot : lootContext.registry.ListsHaveComponents lootOutline := by
  intro vt element hholds ho
  rw [eq_loot_of_holdsListOf hholds (Or.inl rfl), outline?_loot] at ho
  obtain rfl := Option.some.inj ho
  decide

theorem leavesReadBack_chest : lootContext.LeavesReadBack lootOutline chest := by
  have htext : ∀ s : String, lootContext.LeavesReadBack (.leaf .string) (.text s) := by
    refine fun s => .leaf fun cs hcs => ?_
    obtain rfl := Except.ok.inj hcs
    exact congrArg (fun t => Except.ok (Value.text t)) String.ofList_toList
  have hcoin : lootContext.LeavesReadBack lootOutline
      (.struct [("name", .text "coin"), ("weight", .text "1")]) := by
    refine .struct fun f hf => ?_
    rcases List.mem_pair.1 hf with rfl | rfl
    · exact htext "coin"
    · exact .nested fun _ _ v hv => nomatch hv
  refine .struct fun f hf => ?_
  rcases List.mem_pair.1 hf with rfl | rfl
  · exact htext "chest"
  · refine .nested fun outline ho v hv => ?_
    obtain rfl := Option.some.inj (outline?_loot.symm.trans ho)
    rw [List.mem_singleton.1 hv]
    exact hcoin

/-- A property that holds loot. -/
def lootProperty : Property := ⟨"loot", .single (.embedded "Loot")⟩

/-- The chest comes back with its fields in order and the drops of the coin filled in. -/
theorem decode_encode_chest :
    lootContext.encode lootProperty chest = .ok "chest,[coin,]" ∧
      lootContext.decode lootProperty "chest,[coin,]" =
        .ok (.struct [("name", .text "chest"),
          ("drops", .list [.struct [("name", .text "coin"), ("drops", .list [])]])]) := by
  have hwritten : lootContext.encode lootProperty chest = .ok "chest,[coin,]" := rfl
  refine ⟨hwritten, Context.decode_encode (v := chest) (by decide) (fun outline ho => ?_)
    (fun outline ho => ?_) hwritten⟩
  · obtain rfl := Option.some.inj (outline?_loot.symm.trans ho)
    exact listsHaveComponents_loot
  · obtain rfl := Option.some.inj (outline?_loot.symm.trans ho)
    exact leavesReadBack_chest

end RecordTables.Cell
