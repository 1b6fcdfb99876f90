import Mathlib.Data.List.Sort
import Mathlib.Data.String.Basic
import Narrative.Proofs.Folder
import Narrative.Proofs.Script.Document
import Narrative.Proofs.Text

namespace Narrative

namespace FileName

theorem precedes_iff {a b : List String} : precedes a b = true ↔ a ≤ b := by
  induction a generalizing b with
  | nil =>
    have hfirst : ([] : List String) ≤ b := not_lt.mp (List.not_lt_nil b)
    rw [precedes]
    simp [hfirst]
  | cons x more ih =>
    cases b with
    | nil =>
      rw [precedes]
      simp
    | cons y rest =>
      rw [precedes, Bool.or_eq_true, Bool.and_eq_true, decide_eq_true_iff, decide_eq_true_iff, ih,
        le_iff_lt_or_eq, le_iff_lt_or_eq, List.cons_lt_cons_iff, List.cons.injEq]
      tauto

/-- What two names have in front of them does not count. -/
theorem precedes_append (here a b : List String) :
    precedes (here ++ a) (here ++ b) = precedes a b := by
  induction here with
  | nil => rfl
  | cons part here ih =>
    rw [List.cons_append, List.cons_append, precedes, ih]
    simp

end FileName

namespace Draft

open FileName Outcome

/-- Files by the parts of their names. -/
abbrev Listing := List (List String × Bytes)

variable {limits : Limits} {files walk sorted : Listing}

/-- The files of a listing under the names that they have from further up. -/
def below (here : List String) (file : List String × Bytes) : List String × Bytes :=
  (here ++ file.1, file.2)

/-- The JSON files in a directory and the directories inside it, under their names from there. -/
def found (folder : Folder) (here : List String) : Listing :=
  (folder.contents.filter fun e =>
    here.isPrefixOf (parts e.1) && extension? e.1 = some "json").map fun e =>
      ((parts e.1).drop here.length, e.2)

def inOrder (files : Listing) : Listing := files.mergeSort fun a b => precedes a.1 b.1

theorem inOrder_perm (files : Listing) : (inOrder files).Perm files := List.mergeSort_perm files _

theorem inOrder_pairwise (files : Listing) : (inOrder files).Pairwise fun f g => f.1 ≤ g.1 := by
  have hsorted : (inOrder files).Pairwise fun f g => precedes f.1 g.1 = true := by
    refine List.pairwise_mergeSort (fun f g k hfg hgk => ?_) (fun f g => ?_) files
    · exact precedes_iff.mpr ((precedes_iff.mp hfg).trans (precedes_iff.mp hgk))
    · rw [Bool.or_eq_true, precedes_iff, precedes_iff]
      exact le_total f.1 g.1
  exact hsorted.imp precedes_iff.mp

/-- Files of different names stand in one order only. -/
theorem eq_inOrder (hperm : sorted.Perm files) (hsorted : sorted.Pairwise fun f g => f.1 < g.1) :
    sorted = inOrder files := by
  refine (hperm.trans (inOrder_perm files).symm).eq_of_pairwise (fun f g hf hg hle hge => ?_)
    (hsorted.imp le_of_lt) (inOrder_pairwise files)
  have hg : g ∈ sorted := hperm.mem_iff.mpr ((inOrder_perm files).mem_iff.mp hg)
  have hname : f.1 = g.1 := le_antisymm hle hge
  have hnames : (sorted.map Prod.fst).Nodup :=
    List.pairwise_map.mpr (hsorted.imp ne_of_lt)
  exact List.inj_on_of_nodup_map hnames hf hg hname

theorem inOrder_strict (hdistinct : (files.map Prod.fst).Nodup) :
    (inOrder files).Pairwise fun f g => f.1 < g.1 := by
  have hnames : ((inOrder files).map Prod.fst).Nodup :=
    ((inOrder_perm files).map Prod.fst).nodup_iff.mpr hdistinct
  exact ((inOrder_pairwise files).and (List.pairwise_map.mp hnames)).imp fun h =>
    lt_of_le_of_ne h.1 h.2

theorem inOrder_eq (hdistinct : (files.map Prod.fst).Nodup) (hwalk : walk.Perm files) :
    inOrder walk = inOrder files :=
  eq_inOrder ((inOrder_perm walk).trans hwalk)
    (inOrder_strict ((hwalk.map Prod.fst).nodup_iff.mpr hdistinct))

theorem inOrder_below (here : List String) (files : Listing) :
    inOrder (files.map (below here)) = (inOrder files).map (below here) :=
  (List.map_mergeSort fun f _ g _ => (precedes_append here f.1 g.1).symm).symm

def scene? (d : Draft) (name : String) : Option (List Instruction) := Keyed.lookup name d.scenes

theorem scene?_merge (d later : Draft) (name : String) :
    (d.merge later).scene? name = (later.scene? name).or (d.scene? name) :=
  Keyed.lookup_union name d.scenes later.ordered

theorem ext_scene? {d d' : Draft} (h : ∀ name, d.scene? name = d'.scene? name) : d = d' := by
  have hscenes : d.scenes = d'.scenes := Keyed.ext_lookup d.ordered d'.ordered h
  cases d
  cases d'
  subst hscenes
  rfl

theorem merge_assoc (a b c : Draft) : (a.merge b).merge c = a.merge (b.merge c) := by
  apply ext_scene?
  intro name
  rw [scene?_merge, scene?_merge, scene?_merge, scene?_merge, Option.or_assoc]

theorem empty_merge (d : Draft) : empty.merge d = d := by
  apply ext_scene?
  intro name
  have hempty : empty.scene? name = none := rfl
  rw [scene?_merge, hempty, Option.or_none]

/-- Merges one part after the other. -/
def mergeAll (parts : List Draft) : Draft := parts.foldl merge empty

theorem foldl_merge (d : Draft) (parts : List Draft) :
    parts.foldl merge d = d.merge (mergeAll parts) := by
  induction parts generalizing d with
  | nil => rfl
  | cons part rest ih =>
    have hrest : mergeAll (part :: rest) = part.merge (mergeAll rest) := by
      rw [mergeAll, List.foldl_cons, empty_merge, ih]
    rw [List.foldl_cons, ih, merge_assoc, hrest]

theorem mergeAll_append (parts more : List Draft) :
    mergeAll (parts ++ more) = (mergeAll parts).merge (mergeAll more) := by
  rw [mergeAll, List.foldl_append, foldl_merge]
  rfl

/-- The last part that has a scene decides what it is. -/
theorem scene?_mergeAll (parts : List Draft) (name : String) :
    (mergeAll parts).scene? name = parts.reverse.findSome? fun part => part.scene? name := by
  induction parts with
  | nil => rfl
  | cons part rest ih =>
    have hpart : mergeAll [part] = part := empty_merge part
    have hone : [part].findSome? (fun part => part.scene? name) = part.scene? name := by
      cases h : part.scene? name <;> simp [h]
    rw [← List.singleton_append, mergeAll_append, scene?_merge, hpart, ih, List.reverse_append,
      List.findSome?_append, List.reverse_singleton, hone]

/-- A way to merge parts that follow one another: some of them first, and then what comes of it. -/
inductive Batch
  | none
  | part (d : Draft)
  | both (first second : Batch)

def Batch.parts : Batch → List Draft
  | none => []
  | part d => [d]
  | both first second => first.parts ++ second.parts

def Batch.merged : Batch → Draft
  | none => empty
  | part d => d
  | both first second => first.merged.merge second.merged

theorem Batch.merged_eq (b : Batch) : b.merged = mergeAll b.parts := by
  induction b with
  | none => rfl
  | part d => exact (empty_merge d).symm
  | both first second hfirst hsecond => rw [merged, parts, hfirst, hsecond, mergeAll_append]

/-- The part that a file holds. -/
def ofBytes (limits : Limits) (bytes : Bytes) : Except Failure Draft :=
  match Folder.textOf bytes with
  | .ok text => ofText limits text
  | .error fault => .error (.io fault)

/-- Loading is reading the parts and merging them, and stops where a part cannot be read. -/
theorem ofFiles_eq (limits : Limits) (files : Listing) :
    ofFiles limits files =
      ((inOrder files).mapM fun f => ofBytes limits f.2).map mergeAll := by
  have hstep (d : Draft) (f : List String × Bytes) :
      (match Folder.textOf f.2 with
        | .ok text => do .ok (d.merge (← ofText limits text))
        | .error fault => .error (.io fault)) = (ofBytes limits f.2).map d.merge := by
    rw [ofBytes]
    cases Folder.textOf f.2 with
    | error fault => rfl
    | ok text =>
      dsimp only
      cases ofText limits text with
      | error failure => rfl
      | ok part => rfl
  have hload : ofFiles limits files =
      (inOrder files).foldlM (fun d f => (ofBytes limits f.2).map d.merge) empty :=
    congrArg (fun step => (inOrder files).foldlM step empty) (funext₂ hstep)
  exact hload.trans (foldlM_eq_mapM (fun f => ofBytes limits f.2) merge (inOrder files) empty)

theorem ofFiles_below (limits : Limits) (here : List String) (files : Listing) :
    ofFiles limits (files.map (below here)) = ofFiles limits files := by
  rw [ofFiles_eq, ofFiles_eq, inOrder_below, List.mapM_map]
  rfl

theorem ofDirectory_eq {folder : Folder} {name : String} {here : List String}
    (h : folder.locate name = .ok here) :
    ofDirectory limits folder name = ofFiles limits (found folder here) := by
  rw [ofDirectory, h, ← ofFiles_below limits here, found, List.map_map]
  refine congrArg (ofFiles limits) (List.map_congr_left fun e he => ?_)
  have hlead : here <+: parts e.1 := by
    have hinside := (List.mem_filter.mp he).2
    rw [Bool.and_eq_true] at hinside
    exact List.isPrefixOf_iff_prefix.mp hinside.1
  have hparts : here ++ (parts e.1).drop here.length = parts e.1 :=
    List.prefix_iff_eq_append.mp hlead
  rw [Function.comp_apply, below, hparts]

/-- In a folder made of JSON files these are what is found. -/
theorem found_ofFiles (h : Folder.SideBySide files)
    (hjson : ∀ f ∈ files, extension? (ofParts f.1) = some "json") :
    (found (Folder.ofFiles (files.map Folder.named)) []).Perm files := by
  have hparts : (files.map Folder.named).map (fun e => ((parts e.1).drop 0, e.2)) = files := by
    rw [List.map_map]
    refine (List.map_congr_left fun f hf => ?_).trans (List.map_id files)
    exact Prod.ext (parts_ofParts (h.some f hf) (h.parts f hf)) rfl
  have hall : (files.map Folder.named).filter (fun e =>
      [].isPrefixOf (parts e.1) && extension? e.1 = some "json") = files.map Folder.named := by
    rw [List.filter_eq_self]
    intro e he
    obtain ⟨f, hf, rfl⟩ := List.mem_map.mp he
    have hextension : extension? (Folder.named f).1 = some "json" := hjson f hf
    simp [hextension]
  have hperm := ((Folder.contents_ofFiles h).filter fun e =>
    [].isPrefixOf (parts e.1) && extension? e.1 = some "json").map fun e => ((parts e.1).drop 0, e.2)
  rw [hall, hparts] at hperm
  exact hperm

/-- The scene that a file has under a name. A file that cannot be read has none. -/
def sceneOf? (limits : Limits) (name : String) (file : List String × Bytes) :
    Option (List Instruction) :=
  match ofBytes limits file.2 with
  | .ok part => part.scene? name
  | .error _ => none

/-- What loading some files comes to. If all can be read, each scene is what the last of the files that
have it says, and else the first file that cannot be read says why. -/
def Loads (limits : Limits) (files : Listing) : Except Failure Draft → Prop
  | .ok d => (∀ f ∈ files, ∃ part, ofBytes limits f.2 = .ok part) ∧
      ∀ name, (d.scene? name = none ∧ ∀ f ∈ files, sceneOf? limits name f = none) ∨
        ∃ f ∈ files, ∃ body, d.scene? name = some body ∧ sceneOf? limits name f = some body ∧
          ∀ g ∈ files, f.1 < g.1 → sceneOf? limits name g = none
  | .error failure => ∃ f ∈ files, ofBytes limits f.2 = .error failure ∧
      ∀ g ∈ files, g.1 < f.1 → ∃ part, ofBytes limits g.2 = .ok part

/-- Parts that have been read stand for their files. -/
theorem findSome?_of_mapM {parts : List Draft} (name : String)
    (h : sorted.mapM (fun f => ofBytes limits f.2) = .ok parts) :
    parts.reverse.findSome? (fun part => part.scene? name) =
      sorted.reverse.findSome? (sceneOf? limits name) := by
  induction sorted generalizing parts with
  | nil =>
    cases h
    rfl
  | cons f rest ih =>
    rw [List.mapM_cons, bind_eq_ok] at h
    obtain ⟨part, hpart, h⟩ := h
    obtain ⟨others, hothers, h⟩ := bind_eq_ok.mp h
    cases h
    have hscene : sceneOf? limits name f = part.scene? name := by rw [sceneOf?, hpart]
    have hrest := ih hothers
    rw [List.reverse_cons, List.reverse_cons, List.findSome?_append, List.findSome?_append, hrest,
      List.findSome?_singleton, List.findSome?_singleton, hscene]

/-- A file is before another one, the same, or behind it. -/
theorem mem_split {before after : Listing} {f g : List String × Bytes}
    (hsorted : (before ++ f :: after).Pairwise fun f g => f.1 < g.1)
    (hg : g ∈ before ++ f :: after) :
    g ∈ before ∧ g.1 < f.1 ∨ g = f ∨ g ∈ after ∧ f.1 < g.1 := by
  obtain ⟨-, htail, hacross⟩ := List.pairwise_append.mp hsorted
  rcases List.mem_append.mp hg with hbefore | htailing
  · exact .inl ⟨hbefore, hacross g hbefore f List.mem_cons_self⟩
  · rcases List.mem_cons.mp htailing with heq | hafter
    · exact .inr (.inl heq)
    · exact .inr (.inr ⟨hafter, (List.pairwise_cons.mp htail).1 g hafter⟩)

/-- The last file that has a scene is the first that is come upon from behind. -/
theorem exists_last {body : List Instruction} {name : String}
    (hsorted : sorted.Pairwise fun f g => f.1 < g.1)
    (h : sorted.reverse.findSome? (sceneOf? limits name) = some body) :
    ∃ f ∈ sorted, sceneOf? limits name f = some body ∧
      ∀ g ∈ sorted, f.1 < g.1 → sceneOf? limits name g = none := by
  obtain ⟨later, f, earlier, hsplit, hf, hlater⟩ := List.findSome?_eq_some_iff.mp h
  obtain rfl : sorted = earlier.reverse ++ f :: later.reverse := by
    rw [← List.reverse_reverse sorted, hsplit]
    simp
  refine ⟨f, List.mem_append_right _ List.mem_cons_self, hf, fun g hg hlt => ?_⟩
  rcases mem_split hsorted hg with ⟨-, hgt⟩ | rfl | ⟨hg, -⟩
  · exact absurd hlt (lt_asymm hgt)
  · exact absurd hlt (lt_irrefl _)
  · exact hlater g (List.mem_reverse.mp hg)

theorem exists_first {failure : Failure} (hsorted : sorted.Pairwise fun f g => f.1 < g.1)
    (h : sorted.mapM (fun f => ofBytes limits f.2) = .error failure) :
    ∃ f ∈ sorted, ofBytes limits f.2 = .error failure ∧
      ∀ g ∈ sorted, g.1 < f.1 → ∃ part, ofBytes limits g.2 = .ok part := by
  obtain ⟨before, f, after, rfl, hf, hbefore⟩ := mapM_eq_error h
  refine ⟨f, List.mem_append_right _ List.mem_cons_self, hf, fun g hg hlt => ?_⟩
  rcases mem_split hsorted hg with ⟨hg, -⟩ | rfl | ⟨-, hgt⟩
  · exact hbefore g hg
  · exact absurd hlt (lt_irrefl _)
  · exact absurd hlt (lt_asymm hgt)

theorem loads_inOrder (hdistinct : (files.map Prod.fst).Nodup) :
    Loads limits (inOrder files) (ofFiles limits files) := by
  have hsorted := inOrder_strict hdistinct
  rw [ofFiles_eq]
  cases hparts : (inOrder files).mapM fun f => ofBytes limits f.2 with
  | error failure => exact exists_first hsorted hparts
  | ok parts =>
    refine ⟨mapM_mem hparts, fun name => ?_⟩
    have hscene : (mergeAll parts).scene? name =
        (inOrder files).reverse.findSome? (sceneOf? limits name) :=
      (scene?_mergeAll parts name).trans (findSome?_of_mapM name hparts)
    cases hfound : (inOrder files).reverse.findSome? (sceneOf? limits name) with
    | none =>
      have hnone := List.findSome?_eq_none_iff.mp hfound
      exact .inl ⟨hscene.trans hfound, fun f hf => hnone f (List.mem_reverse.mpr hf)⟩
    | some body =>
      obtain ⟨f, hf, hbody, hlast⟩ := exists_last hsorted hfound
      exact .inr ⟨f, hf, body, hscene.trans hfound, hbody, hlast⟩

/-- What loading comes to does not depend on how the files are listed. -/
theorem Loads.perm {r : Except Failure Draft} (h : Loads limits walk r) (hwalk : walk.Perm files) :
    Loads limits files r := by
  cases r with
  | ok d => simpa only [Loads, hwalk.mem_iff] using h
  | error failure => simpa only [Loads, hwalk.mem_iff] using h

/-- Loading a directory does not depend on the order in which its files are come upon. With the names of
the files compared part by part, a scene is what the last file that has it says, and a failure that of the
first file that cannot be read. Nor does it matter which of the parts are merged first. -/
theorem load_in_any_order (hdistinct : (files.map Prod.fst).Nodup) (hwalk : walk.Perm files) :
    (∀ here, ofFiles limits (walk.map (below here)) = ofFiles limits files) ∧
    (∀ folder name here, folder.locate name = .ok here → (found folder here).Perm files →
      ofDirectory limits folder name = ofFiles limits files) ∧
    (Folder.SideBySide files → (∀ f ∈ files, extension? (ofParts f.1) = some "json") →
      ofDirectory limits (Folder.ofFiles (walk.map Folder.named)) "." = ofFiles limits files) ∧
    Loads limits files (ofFiles limits files) ∧
    (∀ (sorted : Listing) (b : Batch), sorted.Perm files →
      (sorted.Pairwise fun f g => f.1 < g.1) →
      sorted.mapM (fun f => ofBytes limits f.2) = .ok b.parts →
      ofFiles limits files = .ok b.merged) ∧
    ∀ b : Batch, b.merged = b.parts.foldl merge empty := by
  have hany {listing : Listing} (hlisting : listing.Perm files) :
      ofFiles limits listing = ofFiles limits files := by
    rw [ofFiles_eq, ofFiles_eq, inOrder_eq hdistinct hlisting]
  refine ⟨fun here => ?_, fun folder name here hhere hfound => ?_, fun hbeside hjson => ?_,
    (loads_inOrder hdistinct).perm (inOrder_perm files), fun sorted b hperm hsorted hparts => ?_, Batch.merged_eq⟩
  · rw [ofFiles_below, hany hwalk]
  · rw [ofDirectory_eq hhere, hany hfound]
  · have hfound := found_ofFiles (hbeside.perm hwalk) fun f hf => hjson f (hwalk.mem_iff.mp hf)
    rw [ofDirectory_eq (Folder.locate_point _), hany (hfound.trans hwalk)]
  · rw [ofFiles_eq, ← eq_inOrder hperm hsorted, hparts, Batch.merged_eq]
    rfl

/-- A first part and one that tells its beginning anew. -/
def prologue : Draft := .ofScenes [("aside", [.exit]), ("start", [.block "aside"])]

def revised : Draft := .ofScenes [("start", [.finish])]

theorem ofBytes_text (d : Draft) (horder : d.InOrder)
    (hbytes : d.text.utf8ByteSize ≤ limits.scriptBytes) (hdepth : d.toJson.depth ≤ Json.maxLevels) :
    ofBytes limits d.text.toUTF8.toList = .ok d := by
  have hread : Schema.ofText (.named .script) ofDatum? d.text = .ok (some version, d) :=
    Schema.ofText_toJson Json.blank_indented (d.fits horder) d.ofDatum?_toDatum hdepth
  have htext : Folder.textOf d.text.toUTF8.toList = .ok d.text := by
    rw [Folder.textOf, Text.fromUTF8?_toUTF8]
  rw [ofBytes, htext]
  dsimp only
  rw [ofText, if_neg (Nat.not_lt.mpr hbytes), hread]
  exact if_pos rfl

/-- A directory stands before the file that its name starts, though a slash comes after a point. -/
theorem load_in_any_order_revised :
    let files : Listing := [(["a.json"], revised.text.toUTF8.toList),
      (["a", "b.json"], prologue.text.toUTF8.toList)]
    (files.map Prod.fst).Nodup ∧ files.reverse.Perm files ∧ Folder.SideBySide files ∧
      ∃ d, ofDirectory {} (Folder.ofFiles (files.reverse.map Folder.named)) "." = .ok d ∧
        d.scene? "start" = some [.finish] ∧ d.scene? "aside" = some [.exit] := by
  intro files
  have hdistinct : (files.map Prod.fst).Nodup := by decide
  have hperm : files.reverse.Perm files := List.reverse_perm files
  have hbeside : Folder.SideBySide files :=
    ⟨by decide, by decide, List.pairwise_pair.mpr (by decide)⟩
  have hjson : ∀ f ∈ files, extension? (ofParts f.1) = some "json" := by
    intro f hf
    rw [extension?_ofParts (hbeside.some f hf) (hbeside.parts f hf)]
    revert f
    decide
  obtain ⟨-, -, hdirectory, -, hbatch, -⟩ := @load_in_any_order {} files files.reverse hdistinct hperm
  have hrevised : ofBytes {} revised.text.toUTF8.toList = .ok revised := by
    refine ofBytes_text revised ⟨⟨trivial, trivial⟩, trivial⟩ ?_ (by decide)
    rw [text, Json.pretty, String.utf8ByteSize_ofList]
    decide +kernel
  have hprologue : ofBytes {} prologue.text.toUTF8.toList = .ok prologue := by
    refine ofBytes_text prologue ⟨⟨trivial, trivial⟩, ⟨trivial, trivial⟩, trivial⟩ ?_ (by decide)
    rw [text, Json.pretty, String.utf8ByteSize_ofList]
    decide +kernel
  have hparts : files.reverse.mapM (fun f => ofBytes {} f.2) = .ok [prologue, revised] := by
    have hfiles : files.reverse = [(["a", "b.json"], prologue.text.toUTF8.toList),
        (["a.json"], revised.text.toUTF8.toList)] := rfl
    rw [hfiles, List.mapM_cons, List.mapM_cons, List.mapM_nil, hprologue, hrevised]
    rfl
  have hloaded := hbatch files.reverse (.both (.part prologue) (.part revised)) hperm
    (List.pairwise_pair.mpr (by decide)) hparts
  exact ⟨hdistinct, hperm, hbeside, _, (hdirectory hbeside hjson).trans hloaded, rfl, rfl⟩

end Draft

end Narrative
