import Mathlib.Algebra.BigOperators.Fin
import Handheld.Proofs.Screen.Step

/-!
# The buckets of the sprite memory

The sprite memory finds the sprites of a line in sixteen buckets.  A sprite is
in exactly one of them, exactly once, and that is the bucket of its Y byte.

There are three groups.

* The invariant.  `Filed` says what the buckets hold.  `filed_iff_count` counts
  each bucket by itself, and this is the form that the proofs use.
* A write.  `count_moveSprite` counts what moving a sprite does to a bucket.
  `Filed.write` has one case for the Y bytes and one for the others.
* The screen.  No other operation touches the sprite memory, so the invariant
  holds of every reachable screen.
-/

namespace Handheld

theorem get_set {α : Type} {n : Nat} (v : Vector α n) (i j : Fin n) (a : α) :
    (v.set i a).get j = if j = i then a else v.get j := by
  show (v.set i a)[j.val] = if j = i then a else v[j.val]
  rw [Vector.getElem_set]
  simp only [Fin.ext_iff, eq_comm]

namespace SpriteMemory

/-! ## The invariant -/

/-- The buckets together hold each sprite exactly once, and a sprite is in the
bucket that the high digit of its Y byte numbers. -/
structure Filed (m : SpriteMemory) : Prop where
  once : ∀ i : Fin 40, m.buckets.toList.flatten.count i = 1
  place : ∀ (i : Fin 40) (b : Fin 16),
    i ∈ m.buckets.get b ↔ b.val = (m.yByte i).toNat >>> 4

theorem bucketOf_val (y : UInt8) : (bucketOf y).val = y.toNat >>> 4 := by
  rw [bucketOf, Nat.shiftRight_eq_div_pow]

theorem count_buckets (buckets : Vector (List (Fin 40)) 16) (i : Fin 40) :
    buckets.toList.flatten.count i = ∑ b, (buckets.get b).count i := by
  have hlist : buckets.toList = List.ofFn buckets.get := by
    apply List.ext_getElem
    · simp
    · intro k _ _
      rw [List.getElem_ofFn, Vector.getElem_toList]
      rfl
  rw [List.count_flatten, hlist, List.map_ofFn, List.sum_ofFn]
  rfl

theorem filed_iff_count {m : SpriteMemory} :
    m.Filed ↔ ∀ (b : Fin 16) (i : Fin 40),
      (m.buckets.get b).count i = if b = bucketOf (m.yByte i) then 1 else 0 := by
  constructor
  · intro h b i
    have hone := h.once i
    rw [count_buckets, ← Finset.add_sum_erase Finset.univ _
      (Finset.mem_univ (bucketOf (m.yByte i)))] at hone
    have hin : 0 < (m.buckets.get (bucketOf (m.yByte i))).count i :=
      List.count_pos_iff.2 ((h.place i _).2 (bucketOf_val _))
    by_cases hb : b = bucketOf (m.yByte i)
    · rw [if_pos hb, hb]
      omega
    · rw [if_neg hb]
      have hrest : ∑ c ∈ Finset.univ.erase (bucketOf (m.yByte i)),
          (m.buckets.get c).count i = 0 := by omega
      exact Finset.sum_eq_zero_iff.1 hrest b (Finset.mem_erase.2 ⟨hb, Finset.mem_univ b⟩)
  · intro h
    refine ⟨fun i => ?_, fun i b => ?_⟩
    · simp only [count_buckets, h, Finset.sum_ite_eq', Finset.mem_univ, if_true]
    · rw [← List.count_pos_iff, h, ← bucketOf_val, Fin.val_inj]
      split_ifs with hb <;> simp [hb]

/-! ## A write -/

/-- A move takes a sprite out of one bucket and puts it into another. -/
theorem count_moveSprite (buckets : Vector (List (Fin 40)) 16) {i : Fin 40}
    {source target : Fin 16} (hne : source ≠ target) (b : Fin 16) (j : Fin 40) :
    ((moveSprite buckets i source target).get b).count j =
      if j = i then
        if b = source then 0
        else (buckets.get b).count i + if b = target then 1 else 0
      else (buckets.get b).count j := by
  rw [moveSprite]
  simp only [get_set, if_neg hne.symm]
  by_cases htarget : b = target
  · have hsource : b ≠ source := fun h => hne (h.symm.trans htarget)
    rw [if_pos htarget, if_neg hsource, if_pos htarget, List.count_append, htarget]
    by_cases hj : j = i
    · rw [if_pos hj, hj, List.count_singleton_self]
    · have hnew : List.count j [i] = 0 := List.count_eq_zero.2 (by simpa using hj)
      rw [if_neg hj, hnew, Nat.add_zero]
  · rw [if_neg htarget, if_neg htarget, Nat.add_zero]
    by_cases hsource : b = source
    · rw [if_pos hsource, if_pos hsource, hsource]
      by_cases hj : j = i
      · rw [if_pos hj, hj, List.count_eq_zero]
        simp
      · rw [if_neg hj, List.count_filter (by simpa using hj)]
    · rw [if_neg hsource, if_neg hsource]
      split_ifs with hj
      · rw [hj]
      · rfl

theorem bytes_write (m : SpriteMemory) (offset : Fin 160) (value : UInt8) :
    (m.write offset value).bytes = m.bytes.set offset value offset.isLt := by
  rw [write]
  split <;> rfl

theorem yByte_write (m : SpriteMemory) (offset : Fin 160) (value : UInt8) (i : Fin 40) :
    (m.write offset value).yByte i = if 4 * i.val = offset.val then value else m.yByte i := by
  rw [yByte, bytes_write, get_set, yByte]
  simp only [Fin.ext_iff]

/-- A write of another byte than a Y byte. -/
theorem Filed.write_other {m : SpriteMemory} (h : m.Filed) {offset : Fin 160} (value : UInt8)
    (hother : offset.val % 4 ≠ 0) : (m.write offset value).Filed := by
  rw [filed_iff_count] at h ⊢
  intro b i
  have hbuckets : (m.write offset value).buckets = m.buckets := by
    rw [SpriteMemory.write, if_neg hother]
  have hi : 4 * i.val ≠ offset.val := by omega
  rw [hbuckets, yByte_write, if_neg hi]
  exact h b i

/-- A write of the Y byte of a sprite. -/
theorem Filed.write_y {m : SpriteMemory} (h : m.Filed) {offset : Fin 160} (value : UInt8)
    (hy : offset.val % 4 = 0) : (m.write offset value).Filed := by
  rw [filed_iff_count] at h ⊢
  intro b j
  let i : Fin 40 := ⟨offset.val / 4, by omega⟩
  have hbuckets : (m.write offset value).buckets = m.rebucket i value := by
    rw [SpriteMemory.write, if_pos hy]
  have hj : 4 * j.val = offset.val ↔ j = i := by
    rw [Fin.ext_iff]
    simp only [i]
    omega
  rw [hbuckets, yByte_write, rebucket]
  simp only [hj]
  by_cases hsame : bucketOf (m.yByte i) = bucketOf value
  · rw [if_pos hsame, h]
    by_cases hji : j = i
    · rw [if_pos hji, hji, hsame]
    · rw [if_neg hji]
  · rw [if_neg hsame, count_moveSprite m.buckets hsame, h]
    by_cases hji : j = i
    · rw [if_pos hji, if_pos hji]
      by_cases hsource : b = bucketOf (m.yByte i)
      · rw [if_pos hsource, hsource, if_neg hsame]
      · rw [if_neg hsource, if_neg hsource, Nat.zero_add]
    · rw [if_neg hji, if_neg hji]
      exact h b j

theorem Filed.write {m : SpriteMemory} (h : m.Filed) (offset : Fin 160) (value : UInt8) :
    (m.write offset value).Filed := by
  by_cases hy : offset.val % 4 = 0
  · exact h.write_y value hy
  · exact h.write_other value hy

/-- In the blank memory all sprites are in the first bucket. -/
theorem filed_blank : blank.Filed := by
  rw [filed_iff_count]
  intro b i
  have hy : blank.yByte i = 0 := by
    simp [yByte, blank, Vector.get]
  have hzero : bucketOf 0 = 0 := rfl
  have hbucket : blank.buckets.get b = if b = 0 then List.finRange 40 else [] :=
    Vector.getElem_ofFn b.isLt
  rw [hy, hbucket, hzero]
  by_cases hb : b = 0
  · rw [if_pos hb, if_pos hb]
    exact List.count_eq_one_of_mem (List.nodup_finRange 40) (List.mem_finRange i)
  · rw [if_neg hb, if_neg hb, List.count_nil]

end SpriteMemory

/-! ## The screen -/

namespace Screen

theorem write_sprites (s : Screen) (value : UInt8) (r : ScreenRegister) :
    (s.write value r).1.sprites = s.sprites := by
  cases r with
  | control =>
    rw [write, writeControl]
    split
    · split <;> rfl
    · rfl
  | _ => rfl

/-- Only a write to the sprite memory changes it. -/
theorem apply_sprites (s : Screen) (op : ScreenOp) :
    (s.apply op).sprites = s.sprites ∨
      ∃ offset value, (s.apply op).sprites = s.sprites.write offset value := by
  cases op with
  | advance cycles => exact Or.inl (sameSettings_advance s cycles).sprites
  | writeRegister address value =>
    refine Or.inl ?_
    simp only [apply, perform, writeAt]
    split
    · exact write_sprites s value _
    · rfl
  | writeOam address value =>
    simp only [apply, perform, writeOam]
    split
    · exact Or.inr ⟨_, value, rfl⟩
    · exact Or.inl rfl
  | _ => exact Or.inl rfl

/-- The buckets of a reachable screen are in order. -/
theorem Reachable.filed {s : Screen} (h : s.Reachable) : s.sprites.Filed := by
  induction h with
  | powerOn => exact SpriteMemory.filed_blank
  | postBoot => exact SpriteMemory.filed_blank
  | @apply s op _ ih =>
    rcases s.apply_sprites op with heq | ⟨offset, value, heq⟩ <;> rw [heq]
    · exact ih
    · exact ih.write offset value

end Screen
end Handheld
