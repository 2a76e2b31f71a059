import Mathlib
import RecordTables.Proofs.Sheet.Lines

/-!
# Files with their columns in another order

`rearrange places` puts the cells of a list into the order that the places name, and
`rearrangeColumns places` does it in every line of a file, of which nothing else is changed.  If all
lines have as many cells as there are places, and no name of a column begins with a byte-order mark,
which would be lost in front of the file, then the rearranged file is read as the rearranged lines
(`IsTable.rawLines_rearrangeColumns`).
-/

namespace RecordTables.Sheet

/-! ### Rearranging cells -/

section Rearrange

variable {α β : Type} {places : List Nat} {cells : List α}

/-- The cells at the given places, one after the other. -/
def rearrange (places : List Nat) (cells : List α) : List α := places.filterMap (cells[·]?)

@[simp] theorem rearrange_nil (places : List Nat) : rearrange places ([] : List α) = [] := by
  simp [rearrange]

theorem rearrange_map (f : α → β) (places : List Nat) (cells : List α) :
    rearrange places (cells.map f) = (rearrange places cells).map f := by
  unfold rearrange
  rw [List.map_filterMap]
  simp only [List.getElem?_map]

/-- Where the places are those of cells, the cell at a place of the new order is the one whose place
stands there. -/
theorem getElem?_rearrange (h : ∀ i ∈ places, i < cells.length) (j : Nat) :
    (rearrange places cells)[j]? = places[j]?.bind (cells[·]?) := by
  unfold rearrange
  induction places generalizing j with
  | nil => rfl
  | cons i places ih =>
    have hi := List.getElem?_eq_getElem (h i List.mem_cons_self)
    rw [List.filterMap_cons_some hi]
    cases j with
    | zero => exact hi.symm
    | succ j => exact ih (fun i hi => h i (List.mem_cons_of_mem _ hi)) j

theorem rearrange_range (cells : List α) : rearrange (List.range cells.length) cells = cells := by
  refine List.ext_getElem? fun j => ?_
  rw [getElem?_rearrange fun i hi => List.mem_range.1 hi]
  by_cases hj : j < cells.length
  · rw [List.getElem?_range hj, Option.bind_some]
  · rw [List.getElem?_eq_none (by rw [List.length_range]; omega), Option.bind_none,
      List.getElem?_eq_none (by omega)]

theorem mem_of_mem_rearrange {cell : α} (h : cell ∈ rearrange places cells) : cell ∈ cells := by
  obtain ⟨i, -, hi⟩ := List.mem_filterMap.1 h
  exact List.mem_of_getElem? hi

/-- In a new order there are the same cells. -/
theorem rearrange_perm (h : places.Perm (List.range cells.length)) :
    (rearrange places cells).Perm cells := by
  have hperm := h.filterMap (cells[·]?)
  rwa [show (List.range cells.length).filterMap (cells[·]?) = cells from rearrange_range cells]
    at hperm

/-- What stands below a name stands below it in any order. -/
theorem getElem?_rearrange_idxOf {names : List String} {name : String}
    (hnames : places.Perm (List.range names.length)) (hlength : cells.length = names.length)
    (hnodup : names.Nodup) (hname : name ∈ names) :
    (rearrange places cells)[(rearrange places names).idxOf name]? =
      cells[names.idxOf name]? := by
  have hlt : ∀ i ∈ places, i < names.length := fun i hi => List.mem_range.1 (hnames.subset hi)
  have hplace : names.idxOf name ∈ places :=
    hnames.symm.subset (List.mem_range.2 (List.idxOf_lt_length_of_mem hname))
  have hj : places[places.idxOf (names.idxOf name)]? = some (names.idxOf name) :=
    List.getElem?_idxOf hplace
  have hthere : (rearrange places names)[places.idxOf (names.idxOf name)]? = some name := by
    rw [getElem?_rearrange hlt, hj, Option.bind_some, List.getElem?_idxOf hname]
  have hidx : (rearrange places names).idxOf name = places.idxOf (names.idxOf name) := by
    obtain ⟨hbound, hget⟩ := List.getElem?_eq_some_iff.1 hthere
    have hself := ((rearrange_perm hnames).nodup_iff.2 hnodup).idxOf_getElem _ hbound
    rwa [hget] at hself
  rw [hidx, getElem?_rearrange (hlength ▸ hlt), hj, Option.bind_some]

theorem forall₂_rearrange {R : α → β → Prop} {others : List β} (h : List.Forall₂ R cells others) :
    List.Forall₂ R (rearrange places cells) (rearrange places others) := by
  have hlength := h.length_eq
  unfold rearrange
  induction places with
  | nil => exact List.Forall₂.nil
  | cons i places ih =>
    by_cases hi : i < cells.length
    · have hi' : i < others.length := hlength ▸ hi
      rw [List.filterMap_cons_some (List.getElem?_eq_getElem hi),
        List.filterMap_cons_some (List.getElem?_eq_getElem hi')]
      exact List.Forall₂.cons (h.get hi hi') ih
    · rw [List.filterMap_cons_none (List.getElem?_eq_none (by omega)),
        List.filterMap_cons_none (List.getElem?_eq_none (by omega))]
      exact ih

/-- What is read from all cells is read in any order. -/
theorem mapM_rearrange (h : places.Perm (List.range cells.length)) (f : α → Option β) :
    (rearrange places cells).mapM f = (cells.mapM f).map (rearrange places) := by
  cases hread : cells.mapM f with
  | some others => exact mapM_eq_some.2 (forall₂_rearrange (mapM_eq_some.1 hread))
  | none =>
    rw [Option.map_none, Option.eq_none_iff_forall_not_mem]
    intro others hothers
    have hall : ∀ cell ∈ cells, ∃ other, f cell = some other ∧ True := by
      intro cell hcell
      obtain ⟨other, -, hother⟩ := exists_of_mem_forall₂ (R := fun y x => f x = some y)
        (mapM_eq_some.1 hothers).flip ((rearrange_perm h).mem_iff.2 hcell)
      exact ⟨other, hother, trivial⟩
    obtain ⟨ys, hys, -⟩ := exists_mapM_eq_some hall
    rw [hread] at hys
    cases hys

end Rearrange

/-! ### Rearranging lines -/

section Lines

variable {places : List Nat} {width : Nat}

/-- A line with its cells in another order. -/
def RawLine.rearrange (places : List Nat) (l : RawLine) : RawLine :=
  { l with cells := Sheet.rearrange places l.cells }

theorem texts?_rearrange {l : RawLine} (h : places.Perm (List.range l.cells.length)) :
    (l.rearrange places).texts? = l.texts?.map (rearrange places) :=
  mapM_rearrange h Text.ofUtf8?

theorem headerOf_rearrange {raw : List RawLine}
    (hplaces : ∀ l ∈ raw, places.Perm (List.range l.cells.length)) :
    headerOf (raw.map (·.rearrange places)) = (headerOf raw).map (rearrange places) := by
  cases raw with
  | nil => exact congrArg Except.ok (rearrange_nil places).symm
  | cons l raw =>
    rw [List.map_cons, headerOf, headerOf, texts?_rearrange (hplaces l List.mem_cons_self)]
    cases l.texts? with
    | none => rfl
    | some cells =>
      rw [Option.map_some]
      exact congrArg Except.ok (rearrange_map _ _ _).symm

theorem length_of_headerOf {l : RawLine} {raw : List RawLine} {header : List String}
    (h : headerOf (l :: raw) = .ok header) : header.length = l.cells.length := by
  rw [headerOf, RawLine.texts?] at h
  cases hcells : l.cells.mapM Text.ofUtf8? with
  | none =>
    rw [hcells] at h
    cases h
  | some cells =>
    rw [hcells] at h
    rw [← Except.ok.inj h, List.length_map, (mapM_eq_some.1 hcells).length_eq]

end Lines

/-! ### Files of pieces -/

section Files

variable {places : List Nat} {width : Nat}

/-- The bytes of pieces with their endings; the last piece has none. -/
def ofPieces : List (List UInt8 × Nat) → List UInt8
  | [] => []
  | [(piece, _)] => piece
  | (piece, feeds) :: next :: rest => piece ++ ending feeds :: ofPieces (next :: rest)

theorem pieces_of_notMem {piece : List UInt8} (hfeed : lineFeed ∉ piece)
    (hreturn : carriageReturn ∉ piece) : pieces piece = [(piece, 0)] := by
  induction piece with
  | nil => rfl
  | cons b piece ih =>
    simp only [List.mem_cons, not_or] at hfeed hreturn
    rw [pieces, if_neg (Ne.symm hfeed.1), if_neg (Ne.symm hreturn.1), ih hfeed.2 hreturn.2]

/-- Pieces with their endings are told apart again. -/
theorem pieces_ofPieces {all : List (List UInt8 × Nat)} (h : AreEnded all) :
    pieces (ofPieces all) = all := by
  induction all with
  | nil => exact h.elim
  | cons first all ih =>
    obtain ⟨piece, feeds⟩ := first
    cases all with
    | nil =>
      obtain ⟨⟨hfeed, hreturn⟩, rfl⟩ := h
      exact pieces_of_notMem hfeed hreturn
    | cons next rest =>
      obtain ⟨⟨hfeed, hreturn⟩, hfeeds, hrest⟩ := h
      rw [ofPieces, pieces_append_ending hfeed hreturn hfeeds, ih hrest]

/-- Pieces that are changed within themselves keep their endings. -/
theorem AreEnded.map {f : List UInt8 → List UInt8}
    (hf : ∀ b piece, b ≠ tab → b ∉ piece → b ∉ f piece) {all : List (List UInt8 × Nat)}
    (h : AreEnded all) : AreEnded (all.map fun p => (f p.1, p.2)) := by
  have hplain {piece : List UInt8} (hp : lineFeed ∉ piece ∧ carriageReturn ∉ piece) :
      lineFeed ∉ f piece ∧ carriageReturn ∉ f piece :=
    ⟨hf _ _ (by decide) hp.1, hf _ _ (by decide) hp.2⟩
  induction all with
  | nil => exact h
  | cons first all ih =>
    cases all with
    | nil => exact ⟨hplain h.1, h.2⟩
    | cons next rest => exact ⟨hplain h.1, h.2.1, ih h.2.2⟩

/-- A line with its cells in another order. -/
def rearrangePiece (places : List Nat) (piece : List UInt8) : List UInt8 :=
  Text.joinWith tab (rearrange places (Text.splitOn tab piece))

/-- A file with its columns in another order: in every line the cells change their places, while the
ends of the lines, blank lines and a mark in front stay where they are. -/
def rearrangeColumns (places : List Nat) (bytes : List UInt8) : List UInt8 :=
  (if byteOrderMark.isPrefixOf bytes then byteOrderMark else []) ++
    ofPieces ((pieces (dropMark bytes)).map fun p => (rearrangePiece places p.1, p.2))

theorem notMem_rearrangePiece (b : UInt8) (piece : List UInt8) (htab : b ≠ tab) (h : b ∉ piece) :
    b ∉ rearrangePiece places piece :=
  Text.notMem_joinWith htab fun _ hpart hb =>
    h ((Text.of_mem_splitOn (mem_of_mem_rearrange hpart)).2 b hb)

/-- Blank lines stay blank. -/
theorem rearrangePiece_nil (hplaces : places.Perm (List.range width)) :
    rearrangePiece places [] = [] := by
  unfold rearrangePiece
  rw [Text.splitOn]
  cases width with
  | zero =>
    rw [List.range_zero, List.perm_nil] at hplaces
    rw [hplaces]
    rfl
  | succ n =>
    have hperm := hplaces.filterMap ([([] : List UInt8)][·]?)
    have hrange : (List.range (n + 1)).filterMap ([([] : List UInt8)][·]?) = [[]] := by
      simp [List.range_succ_eq_map, List.filterMap_map]
    rw [hrange, List.perm_singleton] at hperm
    unfold rearrange
    rw [hperm]
    rfl

/-- A rearranged line is cut into the rearranged cells. -/
theorem splitOn_rearrangePiece {piece : List UInt8}
    (hplaces : places.Perm (List.range (Text.splitOn tab piece).length)) :
    Text.splitOn tab (rearrangePiece places piece) = rearrange places (Text.splitOn tab piece) := by
  have hperm := rearrange_perm hplaces
  refine Text.splitOn_joinWith (fun hnil => ?_) fun part hpart =>
    (Text.of_mem_splitOn (mem_of_mem_rearrange hpart)).1
  rw [hnil] at hperm
  exact Text.splitOn_ne_nil tab piece hperm.nil_eq.symm

theorem rearrangePiece_ne_nil {piece : List UInt8} (hne : piece ≠ [])
    (hplaces : places.Perm (List.range (Text.splitOn tab piece).length)) :
    rearrangePiece places piece ≠ [] := by
  intro hnil
  have hsplit := splitOn_rearrangePiece hplaces
  have hperm := rearrange_perm hplaces
  rw [hnil, Text.splitOn] at hsplit
  rw [← hsplit, List.singleton_perm] at hperm
  have hjoin := Text.joinWith_splitOn tab piece
  rw [← hperm, Text.joinWith_singleton] at hjoin
  exact hne hjoin.symm

/-- Rearranged pieces make rearranged lines with the same numbers. -/
theorem numberLines_rearrange (hplaces : places.Perm (List.range width)) {number feeds : Nat}
    {all : List (List UInt8 × Nat)}
    (hwidth : ∀ l ∈ numberLines number feeds all, l.cells.length = width) :
    numberLines number feeds (all.map fun p => (rearrangePiece places p.1, p.2)) =
      (numberLines number feeds all).map (·.rearrange places) := by
  induction all generalizing number feeds with
  | nil => rfl
  | cons first all ih =>
    obtain ⟨piece, ends⟩ := first
    rw [numberLines] at hwidth
    rw [List.map_cons, numberLines, numberLines]
    dsimp only
    by_cases hpiece : piece = []
    · subst hpiece
      rw [if_pos List.isEmpty_nil] at hwidth
      rw [rearrangePiece_nil hplaces, if_pos List.isEmpty_nil, if_pos List.isEmpty_nil, ih hwidth]
    · have hne : ¬piece.isEmpty = true := by rwa [List.isEmpty_iff]
      rw [if_neg hne] at hwidth
      -- a line that is not empty stays so, and has its cells in the new order
      have hlength : (Text.splitOn tab piece).length = width := hwidth _ List.mem_cons_self
      have hpart : places.Perm (List.range (Text.splitOn tab piece).length) := by rwa [hlength]
      have hne' : ¬(rearrangePiece places piece).isEmpty = true := by
        rw [List.isEmpty_iff]
        exact rearrangePiece_ne_nil hpiece hpart
      rw [if_neg hne, if_neg hne', splitOn_rearrangePiece hpart,
        ih fun l hl => hwidth l (List.mem_cons_of_mem _ hl)]
      rfl

/-! ### Marks in front -/

theorem prefix_of_prefix_append_cons {α : Type} {l front back : List α} {b : α} (hb : b ∉ l)
    (h : l <+: front ++ b :: back) : l <+: front := by
  have hfront : front ++ [b] <+: front ++ b :: back := ⟨back, (List.append_cons ..).symm⟩
  rcases List.prefix_or_prefix_of_prefix h hfront with h | h
  · rcases List.prefix_concat_iff.1 h with rfl | h
    · exact absurd (List.mem_append_right front (List.mem_singleton_self b)) hb
    · exact h
  · exact absurd (h.subset (List.mem_append_right front (List.mem_singleton_self b))) hb

/-- A mark in front of a file is one in front of its first piece. -/
theorem mark_prefix_of_ofPieces {piece : List UInt8} {feeds : Nat} {rest : List (List UInt8 × Nat)}
    (h : byteOrderMark <+: ofPieces ((piece, feeds) :: rest)) : byteOrderMark <+: piece := by
  have hending : ending feeds ∉ byteOrderMark := by
    unfold ending
    split_ifs <;> decide
  cases rest with
  | nil => exact h
  | cons next rest => exact prefix_of_prefix_append_cons hending h

/-- A mark in front of a line is one in front of its first cell. -/
theorem exists_mark_prefix_of_joinWith {parts : List (List UInt8)}
    (h : byteOrderMark <+: Text.joinWith tab parts) : ∃ part ∈ parts, byteOrderMark <+: part := by
  match parts with
  | [] => exact absurd h (by decide)
  | [part] =>
    rw [Text.joinWith_singleton] at h
    exact ⟨part, List.mem_cons_self, h⟩
  | part :: next :: rest =>
    rw [Text.joinWith_cons_cons] at h
    exact ⟨part, List.mem_cons_self, prefix_of_prefix_append_cons (by decide) h⟩

/-- A table as text: every line has a cell for every column, and the names of the columns differ and
do not begin with a byte-order mark. -/
structure IsTable (width : Nat) (bytes : List UInt8) : Prop where
  width : ∀ l ∈ rawLines bytes, l.cells.length = width
  names : ∀ names, headerOf (rawLines bytes) = .ok names → names.Nodup
  unmarked : ∀ header ∈ (rawLines bytes).head?, ∀ cell ∈ header.cells, ¬byteOrderMark <+: cell

/-- Names without byte-order marks do not begin with one in the file. -/
theorem isTable_of_names {bytes : List UInt8} {names : List String}
    (hnames : headerOf (rawLines bytes) = .ok names) (hnodup : names.Nodup)
    (hmark : ∀ name ∈ names, '\uFEFF' ∉ name.toList)
    (hwidth : ∀ l ∈ rawLines bytes, l.cells.length = width) : IsTable width bytes := by
  refine ⟨hwidth, fun others hothers => ?_, fun l hl cell hcell hprefix => ?_⟩
  · rw [hnames] at hothers
    rwa [← Except.ok.inj hothers]
  · obtain ⟨raw, hraw⟩ := List.head?_eq_some_iff.1 hl
    rw [hraw, headerOf] at hnames
    cases htexts : l.texts? with
    | none =>
      rw [htexts] at hnames
      cases hnames
    | some cells =>
      rw [htexts] at hnames
      obtain ⟨s, hs, hread⟩ := exists_of_mem_forall₂ (R := fun s bs => Text.ofUtf8? bs = some s)
        (mapM_eq_some.1 htexts).flip hcell
      rw [← Text.utf8_of_ofUtf8? hread] at hprefix
      have hhead := List.mem_of_head? (head?_of_marked hprefix)
      refine hmark (Text.trimmed s) ?_ ?_
      · rw [← Except.ok.inj hnames]
        exact List.mem_map_of_mem hs
      · rw [Text.toList_trimmed]
        exact Text.mem_trim hhead (by decide)

/-- The mark in front stays, and there comes none. -/
theorem IsTable.dropMark_rearrangeColumns {bytes : List UInt8} (h : IsTable width bytes)
    (hplaces : places.Perm (List.range width)) : dropMark (rearrangeColumns places bytes) =
      ofPieces ((pieces (dropMark bytes)).map fun p => (rearrangePiece places p.1, p.2)) := by
  unfold rearrangeColumns
  by_cases hmark : byteOrderMark.isPrefixOf bytes = true
  · rw [if_pos hmark, dropMark, if_pos (List.isPrefixOf_iff_prefix.2 (List.prefix_append _ _)),
      List.drop_left]
  · have hbytes : dropMark bytes = bytes := if_neg hmark
    have hunmarked := h.unmarked
    unfold rawLines at hunmarked
    rw [if_neg hmark, List.nil_append, hbytes]
    rw [hbytes] at hunmarked
    refine if_neg fun hprefix => ?_
    rw [List.isPrefixOf_iff_prefix] at hprefix
    cases hpieces : pieces bytes with
    | nil =>
      have hended := areEnded_pieces bytes
      rw [hpieces] at hended
      exact hended.elim
    | cons first rest =>
      obtain ⟨piece, feeds⟩ := first
      rw [hpieces, List.map_cons] at hprefix
      rw [hpieces, numberLines] at hunmarked
      -- a mark at the front would begin the first cell of the first line
      have hfirst := mark_prefix_of_ofPieces hprefix
      have hne : ¬piece.isEmpty = true := by
        rw [List.isEmpty_iff]
        rintro rfl
        rw [rearrangePiece_nil hplaces] at hfirst
        exact absurd hfirst (by decide)
      -- that cell stood in the table before, where no cell begins with the mark
      obtain ⟨part, hpart, hpartmark⟩ := exists_mark_prefix_of_joinWith hfirst
      rw [if_neg hne] at hunmarked
      exact hunmarked _ rfl part (mem_of_mem_rearrange hpart) hpartmark

/-- **The lines of a rearranged table** are its lines, rearranged. -/
theorem IsTable.rawLines_rearrangeColumns {bytes : List UInt8} (h : IsTable width bytes)
    (hplaces : places.Perm (List.range width)) :
    rawLines (rearrangeColumns places bytes) = (rawLines bytes).map (·.rearrange places) := by
  have hended : AreEnded ((pieces (dropMark bytes)).map fun p => (rearrangePiece places p.1, p.2)) :=
    (areEnded_pieces _).map notMem_rearrangePiece
  rw [rawLines, h.dropMark_rearrangeColumns hplaces, pieces_ofPieces hended]
  exact numberLines_rearrange hplaces h.width

end Files

end RecordTables.Sheet
