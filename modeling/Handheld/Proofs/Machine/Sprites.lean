import Handheld.Proofs.Machine.Reachable
import Handheld.Proofs.Screen.Buckets

/-!
# The sprite memory of a machine

However the sprite memory came to hold what it holds, by single writes, by
copies on to it or by a program, its buckets are in order.
-/

namespace Handheld.Machine

/-- The buckets of every reachable screen, by itself or in a machine, hold each
sprite exactly once, in the bucket of its Y byte. -/
theorem sprites_filed :
    (∀ s : Screen, s.Reachable → s.sprites.Filed) ∧
      ∀ m : Machine, m.Reachable → m.bus.screen.sprites.Filed :=
  ⟨fun _ h => h.filed, fun _ h => h.screen.filed⟩

/-- A sprite is moved on a screen and in a machine, which then copies the
sprite memory on to itself. -/
theorem sprites_filed_after_copy :
    let s := Screen.postBoot.run [.writeOam 0xFE04 0x50, .advance 900, .writeOam 0xFEA0 0x50]
    let m : Machine := { postBoot with
      bus := (postBoot.bus.write 0xFE04 0x50).write 0xFF46 0xFE }
    (s.Reachable ∧ s.sprites.Filed) ∧ m.Reachable ∧ m.bus.screen.sprites.Filed := by
  intro s m
  have hs : s.Reachable := Screen.Reachable.postBoot.run _
  have hm : m.Reachable := (Reachable.postBoot.write 0xFE04 0x50).write 0xFF46 0xFE
  exact ⟨⟨hs, sprites_filed.1 s hs⟩, hm, sprites_filed.2 m hm⟩

end Handheld.Machine
