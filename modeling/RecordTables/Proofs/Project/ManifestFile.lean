import RecordTables.Proofs.Files.Progress
import RecordTables.Proofs.Project.Refusals
import RecordTables.Proofs.Store.RecordFile
import RecordTables.Proofs.Text.Basic

/-!
# The file of a manifest

A manifest is read back from its data (`Manifest.read?_node`), so the one that was written beside
generated files is the one that is loaded (`Manifest.load_of_save`).  It can be written into a
directory that is there unless a directory stands in its place (`Manifest.exists_save`), and then no
manifest could be loaded either (`Manifest.isDirectoryAt_of_load`).
-/

namespace RecordTables

open Ron Step

/-! ### The data of a manifest -/

theorem Checkpoints.hasPlainNames_node (c : Checkpoints) : c.node.HasPlainNames := by
  refine ⟨(by decide : IsName "code"), ?_, (by decide : IsName "data"), ?_, trivial⟩
  · cases c.code <;> trivial
  · cases c.data <;> trivial

theorem Manifest.hasPlainNames_node (m : Manifest) : m.node.HasPlainNames := by
  have htexts (names : List String) : Node.AllPlain (names.map .text) :=
    Node.allPlain_iff.2 (List.forall_mem_map.2 fun _ _ => trivial)
  exact ⟨(by decide : IsName "checkpoints"), m.checkpoints.hasPlainNames_node,
    (by decide : IsName "code_artifacts"), htexts m.codeArtifacts,
    (by decide : IsName "data_artifacts"), htexts m.dataArtifacts, trivial⟩

/-- A fingerprint that may be absent is read back. -/
theorem Checkpoints.option?_ofOption (f : Option Fingerprint) :
    Ron.form.option? (fun d => (Ron.form.text? d).bind fun s => (Fingerprint.ofText s).toOption)
      (Node.ofOption (f.map fun f => .text f.text)).tree = some f := by
  cases f with
  | none => rfl
  | some f =>
    have hpresent : Ron.form.optional? (Node.ofOption ((some f).map fun f => .text f.text)).tree =
        some (some (.text f.text)) := rfl
    have htext : Ron.form.text? (.text f.text) = some f.text := rfl
    unfold Form.option?
    rw [hpresent]
    dsimp only
    rw [htext, Option.bind_some, f.ofText_text]
    rfl

theorem Checkpoints.read?_node (c : Checkpoints) :
    Checkpoints.read? Ron.form c.node.tree = some c := by
  have hparts : Ron.form.record? "Checkpoints" ["code", "data"] c.node.tree =
      some [("code", (Node.ofOption (c.code.map fun f => .text f.text)).tree),
        ("data", (Node.ofOption (c.data.map fun f => .text f.text)).tree)] := rfl
  unfold Checkpoints.read?
  rw [hparts]
  show ((Ron.form.option? _ (Node.ofOption (c.code.map fun f => .text f.text)).tree).bind
    fun code => (Ron.form.option? _ (Node.ofOption (c.data.map fun f => .text f.text)).tree).bind
      fun data => some (⟨code, data⟩ : Checkpoints)) = _
  rw [option?_ofOption, option?_ofOption]
  rfl

theorem Manifest.list?_texts (names : List String) :
    Ron.form.list? Ron.form.text? (Node.list (names.map .text)).tree = some names := by
  show ((Node.trees (names.map .text)).mapM Ron.form.text?) = _
  rw [Node.trees_eq_map, List.map_map]
  have htext (name : String) : Ron.form.text? (Node.text name).tree = some (id name) := rfl
  have hread := mapM_map_eq_some (Node.tree ∘ Node.text) htext names
  rwa [List.map_id] at hread

/-- **A manifest** is read back from its data. -/
theorem Manifest.read?_node (m : Manifest) : Manifest.read? Ron.form m.node.tree = some m := by
  have hparts : Ron.form.record? "GenerationManifest"
      ["checkpoints", "code_artifacts", "data_artifacts"] m.node.tree =
        some [("checkpoints", m.checkpoints.node.tree),
          ("code_artifacts", (Node.list (m.codeArtifacts.map .text)).tree),
          ("data_artifacts", (Node.list (m.dataArtifacts.map .text)).tree)] := rfl
  unfold Manifest.read?
  rw [hparts]
  show ((Checkpoints.read? Ron.form m.checkpoints.node.tree).bind fun checkpoints =>
    (Ron.form.list? Ron.form.text? (Node.list (m.codeArtifacts.map .text)).tree).bind fun code =>
      (Ron.form.list? Ron.form.text? (Node.list (m.dataArtifacts.map .text)).tree).bind fun data =>
        some (⟨checkpoints, code, data⟩ : Manifest)) = _
  rw [Checkpoints.read?_node, list?_texts, list?_texts]
  rfl

namespace Manifest

variable {t t' : FileTree} {ps : List String} {m : Manifest}

/-! ### The manifest beside generated files -/

theorem ofPath_join (directory : Path) :
    DataNotation.ofPath (directory.join fileName) = .ok .ron :=
  DataNotation.ofPath_join directory isName_fileName (by decide)

theorem save_eq (directory : Path) (m : Manifest) :
    save directory m = (do
      Step.change .io (·.makeDirectories? (directory.join fileName).parent)
      Step.change .io (·.write? (directory.join fileName) (Text.utf8 m.node.ron))) := by
  unfold save DataFile.save DataFile.render
  rw [ofPath_join]
  rfl

/-- The manifest depends on what stands at its place. -/
theorem load_congr {directory : Path}
    (h : t'.at? (directory.join fileName) = t.at? (directory.join fileName)) :
    load t' directory = load t directory := by
  unfold load
  dsimp only
  unfold FileTree.holds DataFile.load FileTree.readText? FileTree.read?
  rw [h]

/-- A manifest is loaded from its text. -/
theorem load_of_read? (h : t.read? (.inside (ps ++ [fileName])) = some (Text.utf8 m.node.ron)) :
    load t (.inside ps) = .ok m := by
  have hplace : (Path.inside ps).join fileName = .inside (ps ++ [fileName]) :=
    Path.join_inside ps isName_fileName
  have hholds : t.holds (.inside (ps ++ [fileName])) = true := by
    unfold FileTree.holds
    unfold FileTree.read? at h
    split at h
    · next hfile => rw [hfile]; rfl
    · cases h
  -- the text is read back from the bytes, and the manifest from the text
  have hread : DataNotation.ron.read? (fun _ form d => Manifest.read? form d) m.node.ron =
      some m := by
    show (Ron.ofText? m.node.ron).bind (Manifest.read? Ron.form) = some m
    rw [Ron.ofText?_ron m.hasPlainNames_node, Option.bind_some, m.read?_node]
  have htext : t.readText? (.inside (ps ++ [fileName])) = some m.node.ron := by
    unfold FileTree.readText?
    rw [h, Option.bind_some, Text.ofUtf8?_utf8]
  have hload : DataFile.load t (fun _ form d => Manifest.read? form d)
      ((Path.inside ps).join fileName) = .ok m := by
    unfold DataFile.load
    rw [ofPath_join, hplace]
    dsimp only
    rw [htext]
    dsimp only
    rw [hread]
  unfold load
  dsimp only
  rw [hload, hplace, if_pos hholds]

/-- **The manifest that was written** is the one that is loaded. -/
theorem load_of_save (hps : ".." ∉ ps) (h : (save (.inside ps) m).Answers t () t') :
    load t' (.inside ps) = .ok m := by
  rw [save_eq, Path.join_inside ps isName_fileName] at h
  obtain ⟨_, t₁, -, hwrite⟩ := answers_bind.1 h
  have hwrite := answers_change.1 hwrite
  refine load_of_read? ?_
  rw [FileTree.read?_inside t' (Path.plain_concat hps isName_fileName),
    (FileTree.contents_of_write? (Path.plain_concat hps isName_fileName) hwrite).1]
  rw [if_pos rfl]

/-- A manifest that could be loaded is no directory. -/
theorem isDirectoryAt_of_load (hps : ".." ∉ ps) (h : load t (.inside ps) = .ok m) :
    t.isDirectoryAt (ps ++ [fileName]) = false := by
  unfold load at h
  rw [Path.join_inside ps isName_fileName] at h
  dsimp only at h
  split_ifs at h with hholds
  · -- what was loaded was a file
    have hread : (t.fileAt? (ps ++ [fileName])).isSome := by
      rw [← FileTree.read?_inside t (Path.plain_concat hps isName_fileName)]
      by_contra hnone
      rw [Bool.not_eq_true, Option.isSome_eq_false_iff, Option.isNone_iff_eq_none] at hnone
      unfold DataFile.load FileTree.readText? at h
      rw [hnone] at h
      split at h <;> cases h
    obtain ⟨content, hcontent⟩ := Option.isSome_iff_exists.1 hread
    exact FileTree.isDirectoryAt_eq_false_of_fileAt? hcontent
  · unfold FileTree.holds at hholds
    rw [FileTree.at?_inside t (Path.plain_concat hps isName_fileName),
      Option.not_isSome_iff_eq_none] at hholds
    unfold FileTree.isDirectoryAt
    rw [hholds]
    rfl

/-- A manifest can be written into a directory that is there, unless a directory stands in its
place. -/
theorem exists_save (hps : ".." ∉ ps) (hnames : ∀ part ∈ ps, FileTree.isName part = true)
    (hdirectory : t.isDirectoryAt ps = true)
    (hfree : t.isDirectoryAt (ps ++ [fileName]) = false) (m : Manifest) :
    ∃ t', (save (.inside ps) m).Answers t () t' := by
  obtain ⟨t₁, hmake, -, hdirectories⟩ := FileTree.exists_makeDirectories? hps hdirectory hnames
  obtain ⟨t', hwrite⟩ := FileTree.exists_write? (t := t₁) (Path.plain_concat hps isName_fileName)
    (by decide) ((hdirectories _).trans hdirectory) ((hdirectories _).trans hfree)
    (Text.utf8 m.node.ron)
  refine ⟨t', ?_⟩
  rw [save_eq, Path.join_inside ps isName_fileName, Path.parent_concat]
  exact (answers_change.2 hmake).bind (answers_change.2 hwrite)

end Manifest

end RecordTables
