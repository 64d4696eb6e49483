import Mathlib.Data.List.Infix
import HexRift.Model.Edit

/-! # Lines an edit keeps

An edit splices the lines of a file and joins them again with one terminator. The lines it
keeps come out as they were exactly when they had that terminator. -/

namespace HexRift

open Checks

/-! ## Splices -/

namespace LineOp

variable {α β : Type} {fresh : String → α} {restrip : (String → String) → α → α}

theorem map_modify {f : α → β} {g : α → α} {g' : β → β} (h : ∀ x, f (g x) = g' (f x))
    (xs : List α) (i : ℕ) : (xs.modify i g).map f = (xs.map f).modify i g' := by
  induction xs generalizing i with
  | nil => simp
  | cons x xs ih =>
      cases i with
      | zero => simp [h]
      | succ i => simp [ih]

/-- Splicing commutes with reading something off the entries. -/
theorem act_map {fresh' : String → β} {restrip' : (String → String) → β → β} {f : α → β}
    (hfresh : ∀ s, f (fresh s) = fresh' s) (hrestrip : ∀ g x, f (restrip g x) = restrip' g (f x))
    (op : LineOp) (xs : List α) :
    (op.act fresh restrip xs).map f = op.act fresh' restrip' (xs.map f) := by
  cases op with
  | insert row block =>
      have hblock : (block.map fresh).map f = block.map fresh' := by
        simp [Function.comp_def, hfresh]
      simp only [act, List.map_append, List.map_take, List.map_drop, hblock]
  | delete start stop => simp [act, List.map_take, List.map_drop]
  | strip row first last => exact map_modify (hrestrip _) xs row

theorem actAll_map {fresh' : String → β} {restrip' : (String → String) → β → β} {f : α → β}
    (hfresh : ∀ s, f (fresh s) = fresh' s) (hrestrip : ∀ g x, f (restrip g x) = restrip' g (f x))
    (ops : List LineOp) (xs : List α) :
    (actAll fresh restrip ops xs).map f = actAll fresh' restrip' ops (xs.map f) := by
  induction ops generalizing xs with
  | nil => rfl
  | cons op ops ih =>
      have hstep := act_map hfresh hrestrip op xs
      simp only [actAll, List.foldl_cons] at ih ⊢
      rw [ih, hstep]

theorem forall_mem_modify {P : α → Prop} {g : α → α} (hg : ∀ x, P x → P (g x)) {xs : List α}
    (h : ∀ x ∈ xs, P x) (i : ℕ) : ∀ x ∈ xs.modify i g, P x := by
  induction xs generalizing i with
  | nil => simp
  | cons y ys ih =>
      have hy := h y List.mem_cons_self
      have hys : ∀ x ∈ ys, P x := fun x hx => h x (List.mem_cons_of_mem y hx)
      cases i with
      | zero => simpa using ⟨hg y hy, hys⟩
      | succ i => simpa using ⟨hy, ih hys i⟩

/-- What one splice leaves is an entry it was given, a fresh one or a stripped one. -/
theorem act_forall {P : α → Prop} (hfresh : ∀ s, P (fresh s))
    (hrestrip : ∀ g x, P x → P (restrip g x)) (op : LineOp) {xs : List α} (h : ∀ x ∈ xs, P x) :
    ∀ x ∈ op.act fresh restrip xs, P x := by
  cases op with
  | insert row block =>
      intro x hx
      simp only [act, List.mem_append, List.mem_map] at hx
      rcases hx with (hx | ⟨s, -, rfl⟩) | hx
      · exact h x (List.mem_of_mem_take hx)
      · exact hfresh s
      · exact h x (List.mem_of_mem_drop hx)
  | delete start stop =>
      intro x hx
      rcases List.mem_append.mp hx with hx | hx
      · exact h x (List.mem_of_mem_take hx)
      · exact h x (List.mem_of_mem_drop hx)
  | strip row first last => exact forall_mem_modify (hrestrip _) h row

theorem actAll_forall {P : α → Prop} (hfresh : ∀ s, P (fresh s))
    (hrestrip : ∀ g x, P x → P (restrip g x)) (ops : List LineOp) {xs : List α}
    (h : ∀ x ∈ xs, P x) : ∀ x ∈ actAll fresh restrip ops xs, P x := by
  induction ops generalizing xs with
  | nil => exact h
  | cons op ops ih => exact ih (act_forall hfresh hrestrip op h)

end LineOp

/-! ## Lines with their terminators -/

/-- A line of a spliced file, and whether it is one of the original lines as it was. -/
structure Piece where
  text : String
  terminator : String
  kept : Bool
  deriving DecidableEq

namespace Piece

def ofLine (l : Lines.Line) : Piece :=
  ⟨String.ofList l.content, String.ofList l.terminator, true⟩

def fresh (eol : String) (s : String) : Piece := ⟨s, eol, false⟩

def restrip (eol : String) (f : String → String) (p : Piece) : Piece := ⟨f p.text, eol, false⟩

end Piece

def piecesText (pieces : List Piece) : String :=
  String.ofList (pieces.flatMap fun p => p.text.toList ++ p.terminator.toList)

/-- The terminator the editor writes in the text. -/
def textEol (text : String) : String := eolOf (closeText text)

/-- The lines of the text. A missing final newline is the one the editor adds. -/
def sourcePieces (text : String) : List Piece :=
  let pieces := (Lines.split Python.isLineBreak (closeText text).toList).map Piece.ofLine
  if Python.endswith text "\n" then pieces
  else pieces.dropLast ++ pieces.getLast?.toList.map fun p => { p with terminator := textEol text }

/-- The lines of the text after the splices: those inserted or stripped end as the editor
writes them, the others as they did. -/
def splicedPieces (text : String) (ops : List LineOp) : List Piece :=
  LineOp.actAll (Piece.fresh (textEol text)) (Piece.restrip (textEol text)) ops (sourcePieces text)

/-- The result is the text with nothing changed but what the splices insert, delete and strip.
A file left without lines gets its final newline. -/
def LinesKept (text : String) (ops : List LineOp) (result : String) : Prop :=
  result = if splicedPieces text ops = [] then textEol text
    else piecesText (splicedPieces text ops)

/-- Every line that stays ends in the terminator the editor writes. -/
def TerminatorsAgree (text : String) (ops : List LineOp) : Prop :=
  ∀ p ∈ splicedPieces text ops, p.kept = true → p.terminator = textEol text

/-- An edit of the text that succeeds: the splices and the resulting text. -/
inductive Edited (yaml : Yaml) (text : String) : List LineOp → String → Prop where
  | add {t : Topology} {region : RegionModel} {node : NodeModel} {edit : AddEdit}
      (hparse : Topology.ofText yaml text = .ok t) (hadd : t.addNode yaml region node = .ok edit) :
      Edited yaml text edit.ops edit.text
  | remove {t : Topology} {nodeId : String} {edit : RemoveEdit}
      (hparse : Topology.ofText yaml text = .ok t) (hremove : t.removeNode nodeId = .ok edit) :
      Edited yaml text edit.ops edit.text

section Edits

variable {yaml : Yaml} {text : String} {t : Topology}

theorem ofText_eq_ok (h : Topology.ofText yaml text = .ok t) :
    t.eol = textEol text ∧ t.lines = Python.splitlines (closeText text) := by
  simp only [Topology.ofText, bind_eq_ok] at h
  obtain ⟨root, -, value, -, h⟩ := h
  split at h
  · split at h
    · cases h
    · simp only [bind_eq_ok, pure_eq_ok] at h
      obtain ⟨_, _, _, _, _, _, _, _, _, _, rfl⟩ := h
      exact ⟨rfl, rfl⟩
  · cases h

theorem addNode_text {region : RegionModel} {node : NodeModel} {edit : AddEdit}
    (h : t.addNode yaml region node = .ok edit) :
    edit.text = t.render (LineOp.runAll edit.ops t.lines) := by
  simp only [Topology.addNode, bind_eq_ok] at h
  obtain ⟨-, -, existing, -, h⟩ := h
  cases existing with
  | none =>
      simp only [bind_eq_ok, pure_eq_ok] at h
      obtain ⟨ops, -, rfl⟩ := h
      rfl
  | some existing =>
      simp only [bind_eq_ok, pure_eq_ok] at h
      obtain ⟨ops, -, rfl⟩ := h
      rfl

theorem removeNode_text {nodeId : String} {edit : RemoveEdit}
    (h : t.removeNode nodeId = .ok edit) :
    edit.text = t.render (LineOp.runAll edit.ops t.lines) := by
  simp only [Topology.removeNode] at h
  split at h
  · simp only [Topology.removeFrom, bind_eq_ok, pure_eq_ok] at h
    obtain ⟨_, -, _, -, spans, -, rfl⟩ := h
    rfl
  · cases h

/-- An edit joins the spliced lines again. -/
theorem Edited.result_eq {ops : List LineOp} {result : String} (h : Edited yaml text ops result) :
    result = (textEol text).intercalate (LineOp.runAll ops (Python.splitlines (closeText text))) ++
      textEol text := by
  cases h with
  | add hparse hadd =>
      obtain ⟨heol, hlines⟩ := ofText_eq_ok hparse
      rw [addNode_text hadd, Topology.render, heol, hlines]
  | remove hparse hremove =>
      obtain ⟨heol, hlines⟩ := ofText_eq_ok hparse
      rw [removeNode_text hremove, Topology.render, heol, hlines]

end Edits

/-! ## Spliced lines -/

theorem sourcePieces_text (text : String) :
    (sourcePieces text).map Piece.text = Python.splitlines (closeText text) := by
  have hlines : ((Lines.split Python.isLineBreak (closeText text).toList).map
      Piece.ofLine).map Piece.text = Python.splitlines (closeText text) := by
    rw [List.map_map, Python.splitlines]
    rfl
  unfold sourcePieces
  split
  · exact hlines
  · rw [← hlines]
    generalize (Lines.split Python.isLineBreak (closeText text).toList).map Piece.ofLine = pieces
    rcases List.eq_nil_or_concat pieces with rfl | ⟨ps, p, rfl⟩
    · rfl
    · simp

theorem runAll_splitlines (text : String) (ops : List LineOp) :
    LineOp.runAll ops (Python.splitlines (closeText text)) =
      (splicedPieces text ops).map Piece.text := by
  have hmap : (splicedPieces text ops).map Piece.text =
      LineOp.runAll ops ((sourcePieces text).map Piece.text) := by
    rw [splicedPieces, LineOp.runAll]
    apply LineOp.actAll_map
    · exact fun s => rfl
    · exact fun f p => rfl
  rw [hmap, sourcePieces_text]

theorem closeText_getLast (text : String) : (closeText text).toList.getLast? = some '\n' := by
  unfold closeText
  split
  · rename_i h
    rw [Python.endswith, List.isSuffixOf_iff_suffix] at h
    obtain ⟨cs, hcs⟩ := h
    rw [← hcs]
    simp
  · simp

/-- A terminator of one or two characters. -/
def Piece.Terminated (p : Piece) : Prop :=
  1 ≤ p.terminator.toList.length ∧ p.terminator.toList.length ≤ 2

theorem textEol_cases (text : String) : textEol text = "\r\n" ∨ textEol text = "\n" := by
  unfold textEol eolOf
  split
  · exact .inl rfl
  · exact .inr rfl

theorem textEol_terminated (text s : String) (kept : Bool) :
    Piece.Terminated ⟨s, textEol text, kept⟩ := by
  rcases textEol_cases text with h | h <;> simp [h, Piece.Terminated]

theorem sourcePieces_terminated (text : String) : ∀ p ∈ sourcePieces text, p.Terminated := by
  have hlines : ∀ p ∈ (Lines.split Python.isLineBreak (closeText text).toList).map Piece.ofLine,
      p.Terminated := by
    intro p hp
    obtain ⟨l, hl, rfl⟩ := List.mem_map.mp hp
    have hne := Lines.terminator_ne_nil Python.isLineBreak (by decide) (closeText_getLast text) hl
    have hle := Lines.terminator_length_le Python.isLineBreak hl
    simp only [Piece.Terminated, Piece.ofLine, String.toList_ofList]
    exact ⟨List.length_pos_iff.mpr hne, hle⟩
  unfold sourcePieces
  split
  · exact hlines
  · intro p hp
    rcases List.mem_append.mp hp with hp | hp
    · exact hlines p (List.mem_of_mem_dropLast hp)
    · obtain ⟨q, -, rfl⟩ := List.mem_map.mp hp
      exact textEol_terminated text _ _

theorem splicedPieces_terminated (text : String) (ops : List LineOp) :
    ∀ p ∈ splicedPieces text ops, p.Terminated :=
  LineOp.actAll_forall (fun s => textEol_terminated text s false)
    (fun f p _ => textEol_terminated text (f p.text) false) ops (sourcePieces_terminated text)

/-- A line that is not one of the original ones ends as the editor writes it. -/
theorem splicedPieces_fresh (text : String) (ops : List LineOp) :
    ∀ p ∈ splicedPieces text ops, p.kept = true ∨ p.terminator = textEol text := by
  refine LineOp.actAll_forall (fun _ => .inr rfl) (fun _ _ _ => .inr rfl) ops ?_
  intro p hp
  refine .inl ?_
  unfold sourcePieces at hp
  split at hp
  · obtain ⟨l, -, rfl⟩ := List.mem_map.mp hp
    rfl
  · rcases List.mem_append.mp hp with hp | hp
    · obtain ⟨l, -, rfl⟩ := List.mem_map.mp (List.mem_of_mem_dropLast hp)
      rfl
    · obtain ⟨q, hq, rfl⟩ := List.mem_map.mp hp
      obtain ⟨l, -, hl⟩ := List.mem_map.mp (List.mem_of_getLast? (Option.mem_toList.mp hq))
      rw [← hl]
      rfl

/-! ## Joining them again -/

theorem intercalate_append {eol : String} {lines : List String} (h : lines ≠ []) :
    (eol.intercalate lines ++ eol).toList = lines.flatMap fun l => l.toList ++ eol.toList := by
  induction lines with
  | nil => exact absurd rfl h
  | cons l ls ih =>
      cases ls with
      | nil => simp
      | cons m ms =>
          have hne : m :: ms ≠ [] := List.cons_ne_nil m ms
          rw [String.intercalate_cons_of_ne_nil hne, String.append_assoc, String.toList_append,
            ih hne, String.toList_append]
          rfl

/-- The text of the pieces when each ends as the editor writes it. -/
theorem result_toList {yaml : Yaml} {text : String} {ops : List LineOp} {result : String}
    (h : Edited yaml text ops result) (hne : splicedPieces text ops ≠ []) :
    result.toList =
      (splicedPieces text ops).flatMap fun p => p.text.toList ++ (textEol text).toList := by
  rw [h.result_eq, runAll_splitlines, intercalate_append (by simpa using hne), List.flatMap_map]

/-- A file with lines left is joined as it was exactly when all its terminators agree. -/
theorem flatMap_eol_eq_iff (text : String) (ops : List LineOp) :
    ((splicedPieces text ops).flatMap fun p => p.text.toList ++ (textEol text).toList) =
        ((splicedPieces text ops).flatMap fun p => p.text.toList ++ p.terminator.toList) ↔
      ∀ p ∈ splicedPieces text ops, p.terminator.toList = (textEol text).toList := by
  have hlen := splicedPieces_terminated text ops
  refine Lines.flatMap_terminator_eq_iff ?_
  rcases textEol_cases text with heol | heol
  · exact .inl fun p hp => heol ▸ (hlen p hp).2
  · exact .inr fun p hp => heol ▸ (hlen p hp).1

theorem terminatorsAgree_iff (text : String) (ops : List LineOp) :
    TerminatorsAgree text ops ↔
      ∀ p ∈ splicedPieces text ops, p.terminator.toList = (textEol text).toList := by
  simp only [TerminatorsAgree, String.toList_inj]
  constructor
  · intro h p hp
    rcases splicedPieces_fresh text ops p hp with hkept | hfresh
    · exact h p hp hkept
    · exact hfresh
  · exact fun h p hp _ => h p hp

/-- In a file with one kind of terminator, the lines that stay end as the editor writes them,
whatever the edit. -/
theorem terminatorsAgree_of_source {text : String}
    (h : ∀ p ∈ sourcePieces text, p.terminator = textEol text) (ops : List LineOp) :
    TerminatorsAgree text ops := by
  have hall : ∀ p ∈ splicedPieces text ops, p.terminator = textEol text := by
    refine LineOp.actAll_forall ?_ ?_ ops h
    · exact fun s => rfl
    · exact fun f p _ => rfl
  exact fun p hp _ => hall p hp

/-- An edit keeps the lines it does not touch byte for byte exactly when they end in the
terminator it writes. -/
theorem lines_kept_iff {yaml : Yaml} {text : String} {ops : List LineOp} {result : String}
    (h : Edited yaml text ops result) : LinesKept text ops result ↔ TerminatorsAgree text ops := by
  rw [terminatorsAgree_iff, LinesKept]
  by_cases hnil : splicedPieces text ops = []
  · have hempty : result = textEol text := by
      rw [h.result_eq, runAll_splitlines, hnil]
      simp
    simp [hnil, hempty]
  · rw [if_neg hnil, ← flatMap_eol_eq_iff, ← String.toList_inj, result_toList h hnil, piecesText,
      String.toList_ofList]

/-! ## A file with two kinds of terminators -/

namespace Sample

def strTag : String := "tag:yaml.org,2002:str"

/-- A plain scalar on one line, at its index, line and column. -/
def plain (value : String) (index line column : ℕ) : YamlNode :=
  .scalar strTag value ⟨index, line, column⟩
    ⟨index + value.length, line, column + value.length⟩

def blockMapping (entries : List (YamlNode × YamlNode)) (start stop : Mark) : YamlNode :=
  .mapping "tag:yaml.org,2002:map" entries false start stop

def blockSequence (items : List YamlNode) (start stop : Mark) : YamlNode :=
  .sequence "tag:yaml.org,2002:seq" items false start stop

/-- A region with two nodes, whose first line alone ends in `\r\n`. -/
def mixedText : String :=
  "regions:\r\n  - id: nl\n    type: exit\n    nodes:\n      - id: nl-1\n      - id: nl-2\n"

def mixedRoot : YamlNode :=
  let stop : Mark := ⟨81, 6, 0⟩
  let nodes := blockSequence
    [blockMapping [(plain "id" 55 4 8, plain "nl-1" 59 4 12)] ⟨55, 4, 8⟩ ⟨70, 5, 6⟩,
      blockMapping [(plain "id" 72 5 8, plain "nl-2" 76 5 12)] ⟨72, 5, 8⟩ stop] ⟨53, 4, 6⟩ stop
  let region := blockMapping
    [(plain "id" 14 1 4, plain "nl" 18 1 8), (plain "type" 25 2 4, plain "exit" 31 2 10),
      (plain "nodes" 40 3 4, nodes)] ⟨14, 1, 4⟩ stop
  blockMapping [(plain "regions" 0 0 0, blockSequence [region] ⟨12, 1, 2⟩ stop)] ⟨0, 0, 0⟩ stop

/-- What PyYAML makes of the file; every other text is left out. -/
def mixedYaml : Yaml :=
  { compose := fun text => if text = mixedText then .ok (some mixedRoot, false) else .error ""
    safeLoad := fun value => .ok (.str value) }

def mixedResult : String :=
  "regions:\r\n  - id: nl\r\n    type: exit\r\n    nodes:\r\n      - id: nl-1\r\n"

end Sample

theorem mixed_removed :
    Edited Sample.mixedYaml Sample.mixedText [.delete 5 6] Sample.mixedResult := by
  have hrun : ((Topology.ofText Sample.mixedYaml Sample.mixedText >>= fun t =>
      t.removeNode "nl-2").map fun edit => (edit.ops, edit.text)).toOption =
        some ([.delete 5 6], Sample.mixedResult) := by
    decide
  rw [toOption_eq_some, map_eq_ok] at hrun
  obtain ⟨edit, hedit, heq⟩ := hrun
  obtain ⟨t, hparse, hremove⟩ := bind_eq_ok.mp hedit
  obtain ⟨hops, htext⟩ := Prod.mk.inj heq
  rw [← hops, ← htext]
  exact .remove hparse hremove

theorem lines_kept_iff_mixed :
    LinesKept Sample.mixedText [.delete 5 6] Sample.mixedResult ↔
      TerminatorsAgree Sample.mixedText [.delete 5 6] :=
  lines_kept_iff mixed_removed

/-- The removal rewrites the terminators of the lines it keeps. -/
theorem mixed_terminators_rewritten :
    ¬ ∀ ops result, Edited Sample.mixedYaml Sample.mixedText ops result →
      LinesKept Sample.mixedText ops result := by
  intro h
  have hkept := h _ _ mixed_removed
  revert hkept
  unfold LinesKept
  decide

end HexRift
