import Mathlib.Data.List.Nodup
import Mathlib.Logic.Function.Basic

/-!
# Splitting the screen

The window manager of the shell (`luna-shell-rs/src/wm.rs`) keeps the windows of a workspace in a
binary tree: a leaf is a window, and an inner node splits a region of the screen between its two
sides.  This file has the tree with its operations, and the workspace, which is a tree and the
window that has the focus there.

Ratios are 32-bit floats in the source.  Here they are an arbitrary type with the three operations
that the code makes of them, `Ratios`.  A call of `clamp` whose bounds cross panics, which is
`none`.

* `collectLeaves_insertIntoBsp` and `collectLeaves_removeFromBsp` say what the operations do to the
  windows of a tree.  Inserting puts the new window beside the focused one, and it is lost if that
  is not in the tree.
* **`Workspace.Sound.insert`**, **`Workspace.Sound.remove`**: the focus stays in the tree, so that
  nothing is lost.
-/

namespace Shell

open List

/-- `SplitDir`. -/
inductive SplitDir where
  | horizontal
  | vertical
  deriving DecidableEq, Repr

/-- `BspNode`, with ratios in `ρ`. -/
inductive BspNode (ρ : Type) where
  | leaf (id : UInt32)
  | split (dir : SplitDir) (ratio : ρ) (left right : BspNode ρ)
  deriving DecidableEq, Repr

/-- What the code does with ratios. -/
structure Ratios (ρ : Type) where
  /-- `0.5`. -/
  half : ρ
  /-- `(ratio + delta).clamp(0.15, 0.85)` with `delta` `0.05` or `-0.05`. -/
  adjust : ρ → Bool → ρ
  /-- `(len as f32 * ratio) as i32`. -/
  part : Int32 → ρ → Int32

/-- `x`, `y`, width and height of a window. -/
structure Rect where
  x : Int32
  y : Int32
  w : UInt32
  h : UInt32
  deriving DecidableEq, Repr

variable {ρ : Type}

/-! ## The tree -/

/-- `first_leaf`. -/
def firstLeaf : BspNode ρ → Option UInt32
  | .leaf id => some id
  | .split _ _ left _ => firstLeaf left

/-- `collect_leaves`. -/
def collectLeaves : BspNode ρ → List UInt32
  | .leaf id => [id]
  | .split _ _ left right => collectLeaves left ++ collectLeaves right

/-- `insert_into_bsp`. -/
def insertIntoBsp (R : Ratios ρ) (focused : Option UInt32) (newNode : BspNode ρ) :
    BspNode ρ → BspNode ρ
  | .leaf id =>
    if focused = some id ∨ focused.isNone then
      .split (if id % 2 = 0 then .horizontal else .vertical) R.half (.leaf id) newNode
    else .leaf id
  | .split dir ratio left right =>
    if focused.all (collectLeaves left).contains then
      .split dir ratio (insertIntoBsp R focused newNode left) right
    else .split dir ratio left (insertIntoBsp R focused newNode right)

/-- `remove_from_bsp`. -/
def removeFromBsp (target : UInt32) : BspNode ρ → Option (BspNode ρ)
  | .leaf id => if id = target then none else some (.leaf id)
  | .split dir ratio left right =>
    match removeFromBsp target left, removeFromBsp target right with
    | none, none => none
    | some l, none => some l
    | none, some r => some r
    | some l, some r => some (.split dir ratio l r)

def tilingGap : Int32 := 6

/-- `Ord::clamp`, which panics if the bounds cross. -/
def clamp (v lo hi : Int32) : Option Int32 :=
  if lo > hi then none else if v < lo then some lo else if v > hi then some hi else some v

/-- `layout_bsp`; `out` is the map of rectangles. -/
def layoutBsp (R : Ratios ρ) : BspNode ρ → Int32 → Int32 → Int32 → Int32 →
    (UInt32 → Option Rect) → Option (UInt32 → Option Rect)
  | .leaf id, x, y, w, h, out =>
    if w ≤ 0 ∨ h ≤ 0 then some out
    else
      some (Function.update out id (some
        { x := x + tilingGap
          y := y + tilingGap
          w := (max (w - tilingGap * 2) 1).toUInt32
          h := (max (h - tilingGap * 2) 1).toUInt32 }))
  | .split dir ratio left right, x, y, w, h, out =>
    if w ≤ 0 ∨ h ≤ 0 then some out
    else
      match dir with
      | .horizontal => do
        let lw ← clamp (R.part w ratio) 1 (w - 1)
        let out ← layoutBsp R left x y lw h out
        layoutBsp R right (x + lw) y (w - lw) h out
      | .vertical => do
        let lh ← clamp (R.part h ratio) 1 (h - 1)
        let out ← layoutBsp R left x y w lh out
        layoutBsp R right x (y + lh) w (h - lh) out

/-- `adjust_ratio`; the sign of `delta` is `grow`. -/
def adjustRatio (R : Ratios ρ) (target : UInt32) (grow : Bool) : BspNode ρ → BspNode ρ
  | .leaf id => .leaf id
  | .split dir ratio left right =>
    .split dir
      (if (collectLeaves left).contains target || (collectLeaves right).contains target then
        R.adjust ratio grow
      else ratio)
      (adjustRatio R target grow left) (adjustRatio R target grow right)

/-! ## The windows of a tree -/

theorem collectLeaves_ne_nil (node : BspNode ρ) : collectLeaves node ≠ [] := by
  induction node with
  | leaf id => exact cons_ne_nil id []
  | split dir ratio left right ihl _ => exact append_ne_nil_of_left_ne_nil ihl _

theorem firstLeaf_eq_head? (node : BspNode ρ) : firstLeaf node = (collectLeaves node).head? := by
  induction node with
  | leaf id => rfl
  | split dir ratio left right ihl _ =>
    rw [firstLeaf, ihl, collectLeaves, head?_append_of_ne_nil _ (collectLeaves_ne_nil left)]

/-- The new leaf is put into the tree, if the focused one is there. -/
theorem collectLeaves_insertIntoBsp (R : Ratios ρ) {focused : UInt32} (id : UInt32)
    {node : BspNode ρ} (h : focused ∈ collectLeaves node) :
    (collectLeaves (insertIntoBsp R (some focused) (.leaf id) node)).Perm
      (id :: collectLeaves node) := by
  induction node with
  | leaf id' =>
    have hid : focused = id' := mem_singleton.1 h
    rw [insertIntoBsp, if_pos (.inl (congrArg some hid))]
    exact .swap id id' []
  | split dir ratio left right ihl ihr =>
    rw [insertIntoBsp]
    split
    · next hleft =>
      have hperm := ihl (by simpa using hleft)
      exact hperm.append_right (collectLeaves right)
    · next hleft =>
      have hright : focused ∈ collectLeaves right :=
        (mem_append.1 h).resolve_left (by simpa using hleft)
      exact ((ihr hright).append_left (collectLeaves left)).trans perm_middle

/-- Only the target is removed, and what is left is a tree unless nothing is. -/
theorem collectLeaves_removeFromBsp (target : UInt32) (node : BspNode ρ) :
    (removeFromBsp target node).elim [] collectLeaves =
      (collectLeaves node).filter (· ≠ target) := by
  induction node with
  | leaf id =>
    rw [removeFromBsp]
    by_cases hid : id = target
    · simp [hid, collectLeaves]
    · simp [hid, collectLeaves]
  | split dir ratio left right ihl ihr =>
    rw [removeFromBsp, collectLeaves, filter_append, ← ihl, ← ihr]
    rcases removeFromBsp target left with - | l
    · rcases removeFromBsp target right with - | r
      · rfl
      · rfl
    · rcases removeFromBsp target right with - | r
      · exact (append_nil _).symm
      · rfl

theorem collectLeaves_adjustRatio (R : Ratios ρ) (target : UInt32) (grow : Bool)
    (node : BspNode ρ) : collectLeaves (adjustRatio R target grow node) = collectLeaves node := by
  induction node with
  | leaf id => rfl
  | split dir ratio left right ihl ihr => rw [adjustRatio, collectLeaves, ihl, ihr, collectLeaves]

/-! ## Workspaces -/

/-- `Workspace`. -/
structure Workspace (ρ : Type) where
  root : Option (BspNode ρ) := none
  focused : Option UInt32 := none

namespace Workspace

/-- `Workspace::leaves`. -/
def leaves (ws : Workspace ρ) : List UInt32 := ws.root.elim [] collectLeaves

/-- `Workspace::insert`. -/
def insert (R : Ratios ρ) (ws : Workspace ρ) (surfaceId : UInt32) : Workspace ρ where
  root := some (ws.root.elim (.leaf surfaceId) (insertIntoBsp R ws.focused (.leaf surfaceId)))
  focused := some surfaceId

/-- `Workspace::remove`. -/
def remove (ws : Workspace ρ) (surfaceId : UInt32) : Workspace ρ :=
  let root := ws.root.bind (removeFromBsp surfaceId)
  { root := root
    focused := if ws.focused = some surfaceId then root.bind firstLeaf else ws.focused }

/-- `leaves.iter().position(|&s| s == current).unwrap_or(0)`. -/
def position (ws : Workspace ρ) (current : UInt32) : Nat :=
  (ws.leaves.findIdx? (· = current)).getD 0

/-- `Workspace::next_after`. -/
def nextAfter (ws : Workspace ρ) (current : UInt32) : Option UInt32 :=
  if ws.leaves.isEmpty then none else ws.leaves[(ws.position current + 1) % ws.leaves.length]?

/-- `Workspace::prev_before`. -/
def prevBefore (ws : Workspace ρ) (current : UInt32) : Option UInt32 :=
  if ws.leaves.isEmpty then none
  else ws.leaves[if ws.position current = 0 then ws.leaves.length - 1 else ws.position current - 1]?

/-- No window is in the tree twice, and the focus is on a window of the tree, if there is one. -/
structure Sound (ws : Workspace ρ) : Prop where
  nodup : ws.leaves.Nodup
  empty : ws.focused = none ↔ ws.root = none
  focused : ∀ f, ws.focused = some f → f ∈ ws.leaves

theorem sound_new : ({} : Workspace ρ).Sound :=
  ⟨nodup_nil, iff_of_true rfl rfl, fun f h => by cases h⟩

variable {ws : Workspace ρ}

theorem leaves_insert (R : Ratios ρ) (h : ws.Sound) (surfaceId : UInt32) :
    (ws.insert R surfaceId).leaves.Perm (surfaceId :: ws.leaves) := by
  obtain ⟨root, focused⟩ := ws
  rcases root with - | root
  · exact .refl _
  · rcases focused with - | f
    · cases h.empty.1 rfl
    · exact collectLeaves_insertIntoBsp R surfaceId (h.focused f rfl)

theorem Sound.insert (R : Ratios ρ) (h : ws.Sound) {surfaceId : UInt32}
    (hnew : surfaceId ∉ ws.leaves) : (ws.insert R surfaceId).Sound where
  nodup := (leaves_insert R h surfaceId).nodup_iff.2 (nodup_cons.2 ⟨hnew, h.nodup⟩)
  empty := iff_of_false (fun hf => by cases hf) fun hr => by cases hr
  focused f hf := by
    cases hf
    exact (leaves_insert R h surfaceId).mem_iff.2 mem_cons_self

theorem leaves_remove (ws : Workspace ρ) (surfaceId : UInt32) :
    (ws.remove surfaceId).leaves = ws.leaves.filter (· ≠ surfaceId) := by
  obtain ⟨root, -⟩ := ws
  rcases root with - | root
  · rfl
  · exact collectLeaves_removeFromBsp surfaceId root

theorem mem_leaves_remove {surfaceId f : UInt32} :
    f ∈ (ws.remove surfaceId).leaves ↔ f ∈ ws.leaves ∧ f ≠ surfaceId := by
  rw [leaves_remove]
  simp

/-- A workspace with windows has a tree, and the first of them is its first leaf. -/
theorem bind_firstLeaf (ws : Workspace ρ) : ws.root.bind firstLeaf = ws.leaves.head? := by
  obtain ⟨root, -⟩ := ws
  rcases root with - | root
  · rfl
  · exact firstLeaf_eq_head? root

theorem root_eq_none_iff : ws.root = none ↔ ws.leaves = [] := by
  obtain ⟨root, -⟩ := ws
  rcases root with - | root
  · exact iff_of_true rfl rfl
  · exact iff_of_false (fun h => by cases h) (collectLeaves_ne_nil root)

theorem Sound.remove (h : ws.Sound) (surfaceId : UInt32) : (ws.remove surfaceId).Sound := by
  have hfocused : (ws.remove surfaceId).focused =
      if ws.focused = some surfaceId then (ws.remove surfaceId).leaves.head? else ws.focused := by
    rw [← bind_firstLeaf]
    rfl
  refine ⟨?_, ?_, ?_⟩
  · rw [leaves_remove]
    exact h.nodup.filter _
  · rw [hfocused, root_eq_none_iff]
    split
    · exact head?_eq_none_iff
    · next hother =>
      constructor
      · intro hnone
        rw [leaves_remove, root_eq_none_iff.1 (h.empty.1 hnone)]
        rfl
      · intro hnil
        rcases hf : ws.focused with - | f
        · rfl
        · have hmem : f ∈ (ws.remove surfaceId).leaves :=
            mem_leaves_remove.2 ⟨h.focused f hf, fun heq => hother (heq ▸ hf)⟩
          rw [hnil] at hmem
          cases hmem
  · intro f hf
    rw [hfocused] at hf
    split at hf
    · exact mem_of_head? hf
    · next hother => exact mem_leaves_remove.2 ⟨h.focused f hf, fun heq => hother (heq ▸ hf)⟩

theorem mem_of_nextAfter {current f : UInt32} (h : ws.nextAfter current = some f) :
    f ∈ ws.leaves := by
  rw [nextAfter] at h
  split at h
  · cases h
  · exact mem_of_getElem? h

theorem mem_of_prevBefore {current f : UInt32} (h : ws.prevBefore current = some f) :
    f ∈ ws.leaves := by
  rw [prevBefore] at h
  split at h
  · cases h
  · exact mem_of_getElem? h

theorem Sound.focus (h : ws.Sound) {f : UInt32} (hf : f ∈ ws.leaves) :
    Sound { ws with focused := some f } where
  nodup := h.nodup
  empty := by
    refine iff_of_false (fun hnone => by cases hnone) fun hroot => ?_
    have hnil : ws.leaves = [] := root_eq_none_iff.1 hroot
    rw [hnil] at hf
    cases hf
  focused g hg := by
    cases hg
    exact hf

theorem leaves_adjust (R : Ratios ρ) (ws : Workspace ρ) (target : UInt32) (grow : Bool) :
    leaves { ws with root := ws.root.map (adjustRatio R target grow) } = ws.leaves := by
  obtain ⟨root, -⟩ := ws
  rcases root with - | root
  · rfl
  · exact collectLeaves_adjustRatio R target grow root

theorem Sound.adjust (R : Ratios ρ) (h : ws.Sound) (target : UInt32) (grow : Bool) :
    Sound { ws with root := ws.root.map (adjustRatio R target grow) } where
  nodup := by
    rw [leaves_adjust]
    exact h.nodup
  empty := h.empty.trans Option.map_eq_none_iff.symm
  focused f hf := by
    rw [leaves_adjust]
    exact h.focused f hf

end Workspace

end Shell
