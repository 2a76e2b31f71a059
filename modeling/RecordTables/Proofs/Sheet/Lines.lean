import Mathlib
import RecordTables.Proofs.Outcome
import RecordTables.Proofs.Text.Basic
import RecordTables.Proofs.Text.Pieces
import RecordTables.Sheet.Basic

/-!
# The lines of a written file

Cells that are written without quotes can be told apart again when none of them contains a tab or the
end of a line (`IsPlain`).  A file of lines of plain cells, each line with two cells at least, is cut
into these lines and these cells again, and the lines are numbered from one (`rawLines_fileText`).
Conversely, every cell that is read from any file is plain (`isPlain_of_mem_rawLines`).

The cutting works on bytes: a byte below `0x80` stands for a character of its own wherever it occurs in
a text, so a text without tabs has no byte of a tab (`Text.exists_of_mem_utf8`).
-/

namespace RecordTables

/-! ### Bytes of texts -/

namespace Text

theorem utf8_eq_flatMap (s : String) : utf8 s = s.toList.flatMap String.utf8EncodeChar := by
  unfold utf8
  rw [← String.utf8Encode_toList, List.utf8Encode, List.data_toByteArray]

@[simp] theorem utf8_empty : utf8 "" = [] := rfl

theorem utf8_append (s t : String) : utf8 (s ++ t) = utf8 s ++ utf8 t := by
  rw [utf8_eq_flatMap, utf8_eq_flatMap, utf8_eq_flatMap, String.toList_append, List.flatMap_append]

theorem utf8EncodeChar_of_lt {c : Char} (h : c.toNat < 0x80) :
    String.utf8EncodeChar c = [UInt8.ofNat c.toNat] := by
  have hv : c.val.toNat = c.toNat := rfl
  unfold String.utf8EncodeChar
  dsimp only
  rw [hv, if_pos (by omega)]

theorem le_of_mem_utf8EncodeChar {c : Char} (h : 0x80 ≤ c.toNat) :
    ∀ b ∈ String.utf8EncodeChar c, 0x80 ≤ b.toNat := by
  have hv : c.val.toNat = c.toNat := rfl
  have hlt : c.toNat < 0x110000 := by
    have hvalid := c.valid
    simp only [UInt32.isValidChar, Nat.isValidChar] at hvalid
    omega
  unfold String.utf8EncodeChar
  dsimp only
  rw [hv, if_neg (by omega)]
  -- every byte of a longer sequence has a mark added to some bits of the character
  split_ifs
  all_goals
    simp only [List.forall_mem_cons, List.not_mem_nil, false_implies, implies_true, and_true,
      UInt8.toNat_ofNat']
    omega

/-- A byte below `0x80` is a character. -/
theorem exists_of_mem_utf8 {s : String} {b : UInt8} (h : b ∈ utf8 s) (hb : b.toNat < 0x80) :
    ∃ c ∈ s.toList, c.toNat = b.toNat := by
  rw [utf8_eq_flatMap] at h
  obtain ⟨c, hc, hmem⟩ := List.mem_flatMap.1 h
  refine ⟨c, hc, ?_⟩
  by_cases hlt : c.toNat < 0x80
  · rw [utf8EncodeChar_of_lt hlt] at hmem
    rw [List.mem_singleton.1 hmem, UInt8.toNat_ofNat']
    omega
  · have := le_of_mem_utf8EncodeChar (Nat.le_of_not_lt hlt) b hmem
    omega

/-- A character below `0x80` is a byte. -/
theorem mem_utf8_of_lt {s : String} {c : Char} (h : c ∈ s.toList) (hc : c.toNat < 0x80) :
    UInt8.ofNat c.toNat ∈ utf8 s := by
  rw [utf8_eq_flatMap]
  refine List.mem_flatMap.2 ⟨c, h, ?_⟩
  rw [utf8EncodeChar_of_lt hc]
  exact List.mem_singleton_self _

theorem utf8_of_ofUtf8? {bs : List UInt8} {s : String} (h : ofUtf8? bs = some s) : utf8 s = bs := by
  unfold ofUtf8? String.fromUTF8? at h
  split_ifs at h
  rw [← Option.some.inj h]
  rfl

/-- The parts that a text is cut into do not contain the separator, and nothing new. -/
theorem of_mem_splitOn {α : Type} [DecidableEq α] {sep : α} {cs part : List α}
    (h : part ∈ splitOn sep cs) : sep ∉ part ∧ ∀ c ∈ part, c ∈ cs := by
  induction cs generalizing part with
  | nil =>
    rw [List.mem_singleton.1 h]
    exact ⟨List.not_mem_nil, fun _ h => h⟩
  | cons c rest ih =>
    rw [splitOn] at h
    split_ifs at h with hsep
    · rcases List.mem_cons.1 h with rfl | h
      · exact ⟨List.not_mem_nil, List.forall_mem_nil _⟩
      · exact ⟨(ih h).1, fun x hx => List.mem_cons_of_mem _ ((ih h).2 x hx)⟩
    -- the letter is put in front of the first part, and the others stay
    · obtain ⟨first, parts, hparts⟩ := List.exists_cons_of_ne_nil (splitOn_ne_nil sep rest)
      rw [hparts, consFirst] at h
      rw [hparts] at ih
      rcases List.mem_cons.1 h with rfl | h
      · obtain ⟨hnot, hsub⟩ := ih List.mem_cons_self
        refine ⟨fun hmem => ?_, fun x hx => ?_⟩
        · rcases List.mem_cons.1 hmem with rfl | hmem
          · exact hsep rfl
          · exact hnot hmem
        · rcases List.mem_cons.1 hx with rfl | hx
          · exact List.mem_cons_self
          · exact List.mem_cons_of_mem _ (hsub x hx)
      · obtain ⟨hnot, hsub⟩ := ih (List.mem_cons_of_mem _ h)
        exact ⟨hnot, fun x hx => List.mem_cons_of_mem _ (hsub x hx)⟩

end Text

namespace Sheet

/-! ### Plain cells -/

/-- A cell with neither a tab nor the end of a line in it. -/
def IsPlain (s : String) : Prop := ∀ c ∈ s.toList, c ≠ '\t' ∧ c ≠ '\n' ∧ c ≠ '\r'

instance (s : String) : Decidable (IsPlain s) :=
  List.decidableBAll (fun c => c ≠ '\t' ∧ c ≠ '\n' ∧ c ≠ '\r') s.toList

theorem isPlain_iff {s : String} : IsPlain s ↔
    tab ∉ Text.utf8 s ∧ lineFeed ∉ Text.utf8 s ∧ carriageReturn ∉ Text.utf8 s := by
  constructor
  · intro h
    -- a byte of a mark would be a character of the text
    have hmark (b : UInt8) (mark : Char) (hb : b.toNat < 0x80) (hmark : b.toNat = mark.toNat)
        (hne : ∀ c ∈ s.toList, c ≠ mark) : b ∉ Text.utf8 s := by
      intro hmem
      obtain ⟨c, hc, hcode⟩ := Text.exists_of_mem_utf8 hmem hb
      exact hne c hc (Char.toNat_inj.1 (hcode.trans hmark))
    exact ⟨hmark tab '\t' (by decide) rfl fun c hc => (h c hc).1,
      hmark lineFeed '\n' (by decide) rfl fun c hc => (h c hc).2.1,
      hmark carriageReturn '\r' (by decide) rfl fun c hc => (h c hc).2.2⟩
  · rintro ⟨htab, hfeed, hreturn⟩ c hc
    refine ⟨?_, ?_, ?_⟩
    · rintro rfl
      exact htab (Text.mem_utf8_of_lt hc (by decide))
    · rintro rfl
      exact hfeed (Text.mem_utf8_of_lt hc (by decide))
    · rintro rfl
      exact hreturn (Text.mem_utf8_of_lt hc (by decide))

/-! ### Writing -/

/-- The bytes of a line up to its end. -/
def lineBytes (cells : List String) : List UInt8 := Text.joinWith tab (cells.map Text.utf8)

/-- The file of lines of cells. -/
def fileText (lines : List (List String)) : String := String.join (lines.map lineText)

theorem utf8_lineText (cells : List String) :
    Text.utf8 (lineText cells) = lineBytes cells ++ [lineFeed] := by
  have hcells : Text.utf8 ("\t".intercalate cells) = lineBytes cells := by
    unfold lineBytes
    induction cells with
    | nil => rfl
    | cons cell cells ih =>
      cases cells with
      | nil => simp [Text.joinWith]
      | cons next cells =>
        rw [String.intercalate_cons_cons, Text.utf8_append, Text.utf8_append, ih]
        simp only [List.map_cons, Text.joinWith, List.intercalate_cons_cons]
        rfl
  unfold lineText
  rw [Text.utf8_append, hcells]
  rfl

theorem utf8_fileText (lines : List (List String)) :
    Text.utf8 (fileText lines) = lines.flatMap fun cells => lineBytes cells ++ [lineFeed] := by
  unfold fileText
  induction lines with
  | nil => rfl
  | cons cells lines ih =>
    rw [List.map_cons, String.join_cons, Text.utf8_append, ih, utf8_lineText, List.flatMap_cons]

theorem notMem_lineBytes {b : UInt8} (htab : b ≠ tab) {cells : List String}
    (h : ∀ cell ∈ cells, b ∉ Text.utf8 cell) : b ∉ lineBytes cells :=
  Text.notMem_joinWith htab (List.forall_mem_map.2 h)

theorem lineBytes_ne_nil {cells : List String} (h : 2 ≤ cells.length) : lineBytes cells ≠ [] := by
  obtain ⟨a, b, rest, rfl⟩ : ∃ a b rest, cells = a :: b :: rest := by
    match cells, h with
    | a :: b :: rest, _ => exact ⟨a, b, rest, rfl⟩
  unfold lineBytes
  simp [Text.joinWith, List.intercalate_cons_cons]

/-! ### Cutting a file into lines -/

/-- The byte that ends a piece with so many line feeds. -/
def ending (feeds : Nat) : UInt8 := if feeds = 0 then carriageReturn else lineFeed

/-- An ending ends the first piece. -/
theorem pieces_append_ending {piece : List UInt8} (hfeed : lineFeed ∉ piece)
    (hreturn : carriageReturn ∉ piece) {feeds : Nat} (hfeeds : feeds ≤ 1) (rest : List UInt8) :
    pieces (piece ++ ending feeds :: rest) = (piece, feeds) :: pieces rest := by
  induction piece with
  | nil =>
    rw [List.nil_append, pieces]
    obtain rfl | rfl := Nat.le_one_iff_eq_zero_or_eq_one.1 hfeeds <;> rfl
  | cons b piece ih =>
    simp only [List.mem_cons, not_or] at hfeed hreturn
    rw [List.cons_append, pieces, if_neg (Ne.symm hfeed.1), if_neg (Ne.symm hreturn.1),
      ih hfeed.2 hreturn.2]

/-- A line feed ends the first piece. -/
theorem pieces_append {piece : List UInt8} (hfeed : lineFeed ∉ piece)
    (hreturn : carriageReturn ∉ piece) (rest : List UInt8) :
    pieces (piece ++ lineFeed :: rest) = (piece, 1) :: pieces rest :=
  pieces_append_ending hfeed hreturn (Nat.le_refl 1) rest

theorem pieces_fileBytes {lines : List (List String)}
    (hplain : ∀ cells ∈ lines, ∀ cell ∈ cells, IsPlain cell) :
    pieces (lines.flatMap fun cells => lineBytes cells ++ [lineFeed]) =
      lines.map (fun cells => (lineBytes cells, 1)) ++ [([], 0)] := by
  induction lines with
  | nil => rfl
  | cons cells lines ih =>
    have hcells := hplain cells List.mem_cons_self
    rw [List.flatMap_cons, List.append_assoc, List.singleton_append,
      pieces_append (notMem_lineBytes (by decide) fun cell hc => (isPlain_iff.1 (hcells cell hc)).2.1)
        (notMem_lineBytes (by decide) fun cell hc => (isPlain_iff.1 (hcells cell hc)).2.2),
      ih fun cells hc => hplain cells (List.mem_cons_of_mem _ hc)]
    rfl

/-- Lines of plain cells are numbered one after the other and cut into their cells. -/
theorem numberLines_lines {lines : List (List String)}
    (hplain : ∀ cells ∈ lines, ∀ cell ∈ cells, IsPlain cell)
    (hlength : ∀ cells ∈ lines, 2 ≤ cells.length) (feeds : Nat) :
    numberLines (feeds + 1) feeds (lines.map (fun cells => (lineBytes cells, 1)) ++ [([], 0)]) =
      (lines.zipIdx feeds).map fun l => ⟨l.2 + 1, l.1.map Text.utf8⟩ := by
  induction lines generalizing feeds with
  | nil => rfl
  | cons cells lines ih =>
    have hcells := hplain cells List.mem_cons_self
    have htwo := hlength cells List.mem_cons_self
    have hne : cells.map Text.utf8 ≠ [] := by
      rintro hnil
      rw [List.map_eq_nil_iff.1 hnil] at htwo
      cases htwo
    have hsplit : Text.splitOn tab (lineBytes cells) = cells.map Text.utf8 :=
      Text.splitOn_joinWith hne (List.forall_mem_map.2 fun cell hc => (isPlain_iff.1 (hcells cell hc)).1)
    rw [List.map_cons, List.cons_append, numberLines,
      if_neg (by rw [List.isEmpty_iff]; exact lineBytes_ne_nil htwo), hsplit,
      ih (fun cells hc => hplain cells (List.mem_cons_of_mem _ hc))
        (fun cells hc => hlength cells (List.mem_cons_of_mem _ hc)), List.zipIdx_cons, List.map_cons]

/-- The mark in front of a text is a character of its own. -/
theorem head?_of_marked {s : String} (h : byteOrderMark <+: Text.utf8 s) :
    s.toList.head? = some '\uFEFF' := by
  obtain ⟨rest, hrest⟩ := h
  have hbytes : ['\uFEFF'].utf8Encode ++ rest.toByteArray = s.toList.utf8Encode := by
    rw [String.utf8Encode_toList]
    apply ByteArray.ext
    apply Array.toList_inj.1
    show _ = Text.utf8 s
    rw [← hrest, ByteArray.data_append, Array.toList_append, List.data_toByteArray,
      List.utf8Encode, List.data_toByteArray]
    rfl
  obtain ⟨cs, hcs⟩ := List.isPrefix_of_utf8Encode_append_eq_utf8Encode _ hbytes
  rw [← hcs]
  rfl

theorem dropMark_utf8 {s : String} (h : s.toList.head? ≠ some '\uFEFF') :
    dropMark (Text.utf8 s) = Text.utf8 s :=
  if_neg fun hprefix => h (head?_of_marked (List.isPrefixOf_iff_prefix.1 hprefix))

/-- **The lines of a written file** are cut apart again, if all cells are plain. -/
theorem rawLines_fileText {lines : List (List String)}
    (hplain : ∀ cells ∈ lines, ∀ cell ∈ cells, IsPlain cell)
    (hlength : ∀ cells ∈ lines, 2 ≤ cells.length)
    (hmark : (fileText lines).toList.head? ≠ some '\uFEFF') :
    rawLines (Text.utf8 (fileText lines)) =
      lines.zipIdx.map fun l => ⟨l.2 + 1, l.1.map Text.utf8⟩ := by
  unfold rawLines
  rw [dropMark_utf8 hmark, utf8_fileText, pieces_fileBytes hplain,
    numberLines_lines hplain hlength 0]

/-! ### What is read from any file -/

/-- Pieces as a file has them: each is free of endings, and all but the last have one. -/
def AreEnded : List (List UInt8 × Nat) → Prop
  | [] => False
  | [(piece, feeds)] => (lineFeed ∉ piece ∧ carriageReturn ∉ piece) ∧ feeds = 0
  | (piece, feeds) :: next :: rest =>
    (lineFeed ∉ piece ∧ carriageReturn ∉ piece) ∧ feeds ≤ 1 ∧ AreEnded (next :: rest)

/-- Every file is made of such pieces. -/
theorem areEnded_pieces (bytes : List UInt8) : AreEnded (pieces bytes) := by
  induction bytes with
  | nil => exact ⟨⟨List.not_mem_nil, List.not_mem_nil⟩, rfl⟩
  | cons b rest ih =>
    obtain ⟨⟨piece, feeds⟩, others, hpieces⟩ := List.exists_cons_of_ne_nil
      (show pieces rest ≠ [] from fun hnil => by rw [hnil] at ih; exact ih)
    rw [pieces]
    rw [hpieces] at ih ⊢
    split_ifs with hfeed hreturn
    · exact ⟨⟨List.not_mem_nil, List.not_mem_nil⟩, Nat.le_refl 1, ih⟩
    · exact ⟨⟨List.not_mem_nil, List.not_mem_nil⟩, Nat.zero_le 1, ih⟩
    · have hcons (hplain : lineFeed ∉ piece ∧ carriageReturn ∉ piece) :
          lineFeed ∉ b :: piece ∧ carriageReturn ∉ b :: piece := by
        simp only [List.mem_cons, not_or]
        exact ⟨⟨Ne.symm hfeed, hplain.1⟩, Ne.symm hreturn, hplain.2⟩
      cases others with
      | nil => exact ⟨hcons ih.1, ih.2⟩
      | cons next others => exact ⟨hcons ih.1, ih.2⟩

theorem AreEnded.notMem {all : List (List UInt8 × Nat)} (h : AreEnded all) {piece : List UInt8}
    {feeds : Nat} (hmem : (piece, feeds) ∈ all) : lineFeed ∉ piece ∧ carriageReturn ∉ piece := by
  induction all with
  | nil => cases hmem
  | cons first all ih =>
    cases all with
    | nil =>
      obtain rfl := List.mem_singleton.1 hmem
      exact h.1
    | cons next rest =>
      rcases List.mem_cons.1 hmem with rfl | hmem
      · exact h.1
      · exact ih h.2.2 hmem

theorem of_mem_numberLines {number feeds : Nat} {all : List (List UInt8 × Nat)} {l : RawLine}
    (h : l ∈ numberLines number feeds all) :
    ∃ piece ends, (piece, ends) ∈ all ∧ l.cells = Text.splitOn tab piece := by
  induction all generalizing number feeds with
  | nil => cases h
  | cons first rest ih =>
    obtain ⟨piece, ends⟩ := first
    rw [numberLines] at h
    split_ifs at h
    · obtain ⟨piece', ends', hmem, hcells⟩ := ih h
      exact ⟨piece', ends', List.mem_cons_of_mem _ hmem, hcells⟩
    · rcases List.mem_cons.1 h with rfl | h
      · exact ⟨piece, ends, List.mem_cons_self, rfl⟩
      · obtain ⟨piece', ends', hmem, hcells⟩ := ih h
        exact ⟨piece', ends', List.mem_cons_of_mem _ hmem, hcells⟩

/-- **The cells of any file are plain.** -/
theorem isPlain_of_mem_rawLines {bytes : List UInt8} {l : RawLine} (h : l ∈ rawLines bytes)
    {cells : List String} (htexts : l.texts? = some cells) : ∀ cell ∈ cells, IsPlain cell := by
  intro cell hcell
  obtain ⟨piece, ends, hpiece, hcells⟩ := of_mem_numberLines h
  obtain ⟨hfeed, hreturn⟩ := (areEnded_pieces _).notMem hpiece
  obtain ⟨bs, hbs, htext⟩ : ∃ bs ∈ l.cells, Text.ofUtf8? bs = some cell := by
    unfold RawLine.texts? at htexts
    exact exists_of_mem_forall₂ (R := fun bs s => Text.ofUtf8? bs = some s)
      (mapM_eq_some.1 htexts) hcell
  rw [hcells] at hbs
  obtain ⟨htab, hsub⟩ := Text.of_mem_splitOn hbs
  rw [isPlain_iff, Text.utf8_of_ofUtf8? htext]
  exact ⟨htab, fun h => hfeed (hsub _ h), fun h => hreturn (hsub _ h)⟩

end Sheet

end RecordTables
