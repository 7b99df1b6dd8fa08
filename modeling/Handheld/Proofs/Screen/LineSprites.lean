import Mathlib.Data.List.Induction
import Handheld.Proofs.Screen.Buckets

/-!
# The sprites of a line

A line looks for its sprites in two of the sixteen buckets.  It misses none:
a sprite covers the line only if its Y byte lies within the sixteen lines above
the line, counted from the line itself, and these fall into the two buckets.

There are two groups.

* The search.  `mem_candidates_of_covers` says that two buckets are enough, and
  `Filed.perm_found` that the search finds the sprites that a look at all forty
  would find.
* The sprite that shows.  `IsBest` is the invariant of the scan through the
  sprites of a line.  The scan ends at the sprite with the least key, whatever
  order the sprites come in.
-/

namespace Handheld

namespace SpriteMemory

/-! ## The search -/

/-- The numbers of the sprites that cover a line. -/
def covering (m : SpriteMemory) (height : Nat) (line : UInt8) : List (Fin 40) :=
  (List.finRange 40).filter fun i => (m.sprite i).covers height line.toNat

/-- The numbers of the sprites that a search through the buckets finds. -/
def found (m : SpriteMemory) (height : Nat) (line : UInt8) : List (Fin 40) :=
  (m.candidates line).filter fun i => (m.sprite i).covers height line.toNat

theorem Filed.nodup_candidates {m : SpriteMemory} (h : m.Filed) (line : UInt8) :
    (m.candidates line).Nodup := by
  rw [List.nodup_iff_count_le_one]
  intro i
  rw [← h.once i]
  have hpart : ((m.buckets.toList.drop (line.toNat / 16)).take 2).Sublist m.buckets.toList :=
    (List.take_sublist 2 _).trans (List.drop_sublist _ _)
  exact hpart.flatten.count_le i

/-- Two buckets are enough. -/
theorem Filed.mem_candidates_of_covers {m : SpriteMemory} (h : m.Filed) {height : Nat}
    (hheight : height ≤ 16) {line : UInt8} {i : Fin 40}
    (hcovers : (m.sprite i).covers height line.toNat = true) : i ∈ m.candidates line := by
  have hy : (m.sprite i).y = m.yByte i := rfl
  have hlt := (m.yByte i).toNat_lt
  rw [Sprite.covers, Bool.and_eq_true, decide_eq_true_iff, decide_eq_true_iff, hy] at hcovers
  have hin : i ∈ m.buckets.get (bucketOf (m.yByte i)) := (h.place i _).2 (bucketOf_val _)
  have hbucket : (bucketOf (m.yByte i)).val = (m.yByte i).toNat / 16 := rfl
  refine List.mem_flatten.2 ⟨m.buckets.get (bucketOf (m.yByte i)), ?_, hin⟩
  have hlength : (m.buckets.toList.drop (line.toNat / 16)).length = 16 - line.toNat / 16 := by
    rw [List.length_drop, Vector.length_toList]
  -- the bucket is the one of the line, or the one behind it
  rw [List.mem_take_iff_getElem]
  refine ⟨(m.yByte i).toNat / 16 - line.toNat / 16, by omega, ?_⟩
  have hindex : line.toNat / 16 + ((m.yByte i).toNat / 16 - line.toNat / 16) =
      (m.yByte i).toNat / 16 := by omega
  simp only [List.getElem_drop, Vector.getElem_toList, hindex]
  rfl

theorem Filed.perm_found {m : SpriteMemory} (h : m.Filed) {height : Nat}
    (hheight : height ≤ 16) (line : UInt8) :
    (m.found height line).Perm (m.covering height line) := by
  have hfound : (m.found height line).Nodup := (h.nodup_candidates line).filter _
  have hcovering : (m.covering height line).Nodup := (List.nodup_finRange 40).filter _
  rw [List.perm_ext_iff_of_nodup hfound hcovering]
  intro i
  simp only [found, covering, List.mem_filter, List.mem_finRange, true_and]
  exact ⟨fun hi => hi.2, fun hi => ⟨h.mem_candidates_of_covers hheight hi, hi⟩⟩

/-- The sprites of a line are the first ten of those that the search finds. -/
theorem lineSprites_eq (m : SpriteMemory) (height : Nat) (line : UInt8) :
    m.lineSprites height line = ((m.found height line).take lineLimit).map m.sprite := by
  rw [lineSprites, List.filter_map, ← List.map_take]
  rfl

/-- A line shows as many sprites as cover it, but at most ten. -/
theorem Filed.length_take_found {m : SpriteMemory} (h : m.Filed) {height : Nat}
    (hheight : height ≤ 16) (line : UInt8) :
    ((m.found height line).take lineLimit).length = min 10 (m.covering height line).length := by
  rw [List.length_take, (h.perm_found hheight line).length_eq, lineLimit]

theorem Filed.perm_take_found {m : SpriteMemory} (h : m.Filed) {height : Nat}
    (hheight : height ≤ 16) {line : UInt8} (hfew : (m.covering height line).length ≤ 10) :
    ((m.found height line).take lineLimit).Perm (m.covering height line) := by
  have hperm := h.perm_found hheight line
  have hlength := hperm.length_eq
  have hlimit : lineLimit = 10 := rfl
  rw [List.take_of_length_le (by omega)]
  exact hperm

end SpriteMemory

/-! ## The sprite that shows -/

namespace Sprite

/-- The place of a sprite in the order in which sprites lie over each other:
first by X, then by number. -/
def key (s : Sprite) : Nat :=
  40 * s.x.toNat + s.index.val

theorem isOver_iff (s t : Sprite) : s.isOver t = true ↔ s.key < t.key := by
  have hs := s.index.isLt
  have ht := t.index.isLt
  rw [isOver, Bool.or_eq_true, Bool.and_eq_true, decide_eq_true_iff, decide_eq_true_iff,
    beq_iff_eq, UInt8.lt_iff_toNat_lt, ← UInt8.toNat_inj, Fin.lt_def, key, key]
  omega

end Sprite

namespace Screen

/-- What the scan through the sprites `seen` has found at column `x`: of those
that are not transparent there, one with the least key. -/
def IsBest (s : Screen) (x : Fin 160) (seen : List Sprite) :
    Option (Sprite × ColorIndex) → Prop
  | none => ∀ t ∈ seen, s.spriteColor t x = 0
  | some (t, color) =>
    t ∈ seen ∧ color = s.spriteColor t x ∧ color ≠ 0 ∧
      ∀ u ∈ seen, s.spriteColor u x ≠ 0 → t.key ≤ u.key

theorem betterSprite_of_transparent {s : Screen} {x : Fin 160} {sprite : Sprite}
    (h : s.spriteColor sprite x = 0) (best : Option (Sprite × ColorIndex)) :
    s.betterSprite x best sprite = best := by
  simp only [betterSprite, h, if_true]

theorem betterSprite_none {s : Screen} {x : Fin 160} {sprite : Sprite}
    (h : s.spriteColor sprite x ≠ 0) :
    s.betterSprite x none sprite = some (sprite, s.spriteColor sprite x) := by
  simp only [betterSprite, if_neg h]

theorem betterSprite_some {s : Screen} {x : Fin 160} {sprite : Sprite}
    (h : s.spriteColor sprite x ≠ 0) (other : Sprite) (color : ColorIndex) :
    s.betterSprite x (some (other, color)) sprite =
      if sprite.key < other.key then some (sprite, s.spriteColor sprite x)
      else some (other, color) := by
  simp only [betterSprite, if_neg h, Sprite.isOver_iff]

/-- One more sprite is looked at. -/
theorem IsBest.betterSprite {s : Screen} {x : Fin 160} {seen : List Sprite}
    {best : Option (Sprite × ColorIndex)} (h : s.IsBest x seen best) (sprite : Sprite) :
    s.IsBest x (seen ++ [sprite]) (s.betterSprite x best sprite) := by
  have hsplit : ∀ u ∈ seen ++ [sprite], u ∈ seen ∨ u = sprite := by
    intro u hu
    simpa using hu
  by_cases hcolor : s.spriteColor sprite x = 0
  · rw [betterSprite_of_transparent hcolor]
    cases best with
    | none =>
      intro u hu
      rcases hsplit u hu with hu | rfl
      · exact h u hu
      · exact hcolor
    | some b =>
      obtain ⟨hmem, hsame, hne, hmin⟩ := h
      refine ⟨List.mem_append_left _ hmem, hsame, hne, ?_⟩
      intro u hu hvisible
      rcases hsplit u hu with hu | rfl
      · exact hmin u hu hvisible
      · contradiction
  · cases best with
    | none =>
      rw [betterSprite_none hcolor]
      refine ⟨by simp, rfl, hcolor, ?_⟩
      intro u hu hvisible
      rcases hsplit u hu with hu | rfl
      · exact absurd (h u hu) hvisible
      · exact Nat.le_refl _
    | some b =>
      obtain ⟨other, color⟩ := b
      obtain ⟨hmem, hsame, hne, hmin⟩ := h
      rw [betterSprite_some hcolor]
      by_cases hover : sprite.key < other.key
      · rw [if_pos hover]
        refine ⟨by simp, rfl, hcolor, ?_⟩
        intro u hu hvisible
        rcases hsplit u hu with hu | rfl
        · have hleast := hmin u hu hvisible
          omega
        · exact Nat.le_refl _
      · rw [if_neg hover]
        refine ⟨List.mem_append_left _ hmem, hsame, hne, ?_⟩
        intro u hu hvisible
        rcases hsplit u hu with hu | rfl
        · exact hmin u hu hvisible
        · exact Nat.le_of_not_lt hover

/-- The scan ends at a sprite with the least key. -/
theorem isBest_visibleSprite (s : Screen) (sprites : List Sprite) (x : Fin 160) :
    s.IsBest x sprites (s.visibleSprite sprites x) := by
  induction sprites using List.reverseRecOn with
  | nil => exact fun t ht => absurd ht List.not_mem_nil
  | append_singleton sprites sprite ih =>
    rw [visibleSprite, List.foldl_append]
    exact ih.betterSprite sprite

end Screen
end Handheld
