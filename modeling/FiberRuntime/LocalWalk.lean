import FiberRuntime.Locals
import Mathlib.Data.List.Pairwise

/-!
# The region `scan_local_allocations` walks

The shape of a stack's local-allocation region as the walk meets it: blocks laid end to end in
each arena, from `local_sp` up to offset `0`, with `Local_uninit_hd` exactly where an arena takes
over offsets from the arena before it, and none in arena `0`.  Over word-aligned arenas that do not
overlap, the walked blocks come in the order of their offsets and take up separate bytes, so their
headers and fields are all different words.
-/

namespace FiberRuntime

/-- A block of the walked region: the arena holding it and the offset of its header from the
arena's end. -/
structure LocalBlock where
  /-- The arena's index in `loc->arenas`. -/
  ix : Nat
  /-- The header's offset from the end of the arena, in bytes. -/
  sp : Int
  deriving DecidableEq, Repr

namespace LocalBlock

/-- The byte address of the block's header. -/
def header (arenas : List LocalArena) (block : LocalBlock) : Nat :=
  localHeader arenas block.ix block.sp

/-- The bytes of the block with its header, as its header in `mem` gives them. -/
def size (arenas : List LocalArena) (mem : Nat → Nat) (block : LocalBlock) : Nat :=
  bhsizeHd (mem (block.header arenas / 8))

end LocalBlock

/-- The region the walk goes through, from offset `sp` of arena `ix` up to offset `0`, and the blocks
it meets there in order: headers laid end to end in the arena, each reading as no
`Local_uninit_hd` whatever its colour, and `Local_uninit_hd` exactly where the walk moves to the
arena before, at the same offset. -/
inductive LocalLayout (arenas : List LocalArena) (mem : Nat → Nat) :
    Int → Nat → List LocalBlock → Prop
  /-- Offset `0`: the walk stops. -/
  | done {ix : Nat} : LocalLayout arenas mem 0 ix []
  /-- `Local_uninit_hd`: the walk moves to the arena before. -/
  | switch {sp : Int} {ix : Nat} {blocks : List LocalBlock} (below : sp < 0)
      (inside : -((arenas.getD (ix + 1) ⟨0, 0⟩).length : Int) ≤ sp)
      (uninit : mem (localHeader arenas (ix + 1) sp / 8) = localUninitHd)
      (rest : LocalLayout arenas mem sp ix blocks) : LocalLayout arenas mem sp (ix + 1) blocks
  /-- A block, inside its arena. -/
  | block {sp : Int} {ix : Nat} {blocks : List LocalBlock} (below : sp < 0)
      (inside : -((arenas.getD ix ⟨0, 0⟩).length : Int) ≤ sp)
      (header : withStatusHd (mem (localHeader arenas ix sp / 8)) notMarkable ≠ localUninitHd)
      (rest : LocalLayout arenas mem (sp + bhsizeHd (mem (localHeader arenas ix sp / 8))) ix blocks) :
      LocalLayout arenas mem sp ix (⟨ix, sp⟩ :: blocks)

/-- The local arenas of a stack: word-aligned, and no two overlap. -/
structure ArenasApart (arenas : List LocalArena) : Prop where
  /-- `caml_stat_alloc_aligned` arenas of whole words. -/
  aligned : ∀ arena ∈ arenas, arena.base % 8 = 0 ∧ arena.length % 8 = 0
  /-- Separate allocations. -/
  apart : arenas.Pairwise fun a b => a.base + a.length ≤ b.base ∨ b.base + b.length ≤ a.base

namespace LocalLayout

variable {arenas : List LocalArena} {mem : Nat → Nat} {sp : Int} {ix : Nat}
  {blocks : List LocalBlock}

theorem nonpos (layout : LocalLayout arenas mem sp ix blocks) : sp ≤ 0 := by
  induction layout <;> omega

theorem bounds (layout : LocalLayout arenas mem sp ix blocks) :
    ∀ block ∈ blocks, block.ix ≤ ix ∧ sp ≤ block.sp ∧
      -((arenas.getD block.ix ⟨0, 0⟩).length : Int) ≤ block.sp ∧
      block.sp + (block.size arenas mem : Int) ≤ 0 := by
  induction layout with
  | done => intro _ none; cases none
  | switch _ _ _ _ ih =>
      intro block member
      obtain ⟨arena, offset, inside, fits⟩ := ih block member
      exact ⟨by omega, offset, inside, fits⟩
  | block _ inside _ rest ih =>
      intro block member
      rcases List.mem_cons.mp member with rfl | member
      · exact ⟨Nat.le_refl _, Int.le_refl _, inside, rest.nonpos⟩
      · obtain ⟨arena, offset, inside', fits⟩ := ih block member
        exact ⟨arena, by omega, inside', fits⟩

theorem sorted (layout : LocalLayout arenas mem sp ix blocks) :
    blocks.Pairwise fun a b => b.ix ≤ a.ix ∧ a.sp + (a.size arenas mem : Int) ≤ b.sp := by
  induction layout with
  | done => exact .nil
  | switch _ _ _ _ ih => exact ih
  | block _ _ _ rest ih =>
      refine .cons (fun b member => ?_) ih
      obtain ⟨arena, offset, -⟩ := rest.bounds b member
      exact ⟨arena, offset⟩

theorem headers (layout : LocalLayout arenas mem sp ix blocks) :
    ∀ block ∈ blocks, withStatusHd (mem (block.header arenas / 8)) notMarkable ≠ localUninitHd := by
  induction layout with
  | done => intro _ none; cases none
  | switch _ _ _ _ ih => exact ih
  | block _ _ header _ ih =>
      intro block member
      rcases List.mem_cons.mp member with rfl | member
      · exact header
      · exact ih block member

theorem aligned (layout : LocalLayout arenas mem sp ix blocks) (start : sp % 8 = 0) :
    ∀ block ∈ blocks, block.sp % 8 = 0 := by
  induction layout with
  | done => intro _ none; cases none
  | switch _ _ _ _ ih => exact ih start
  | block _ _ _ _ ih =>
      intro block member
      rcases List.mem_cons.mp member with rfl | member
      · exact start
      · exact ih (by unfold bhsizeHd; omega) block member

end LocalLayout

namespace ArenasApart

variable {arenas : List LocalArena}

theorem header_inside {ix : Nat} {sp : Int} {size : Nat}
    (inside : -((arenas.getD ix ⟨0, 0⟩).length : Int) ≤ sp) (fits : sp + size ≤ 0)
    (positive : 0 < size) :
    ix < arenas.length ∧ (arenas.getD ix ⟨0, 0⟩).base ≤ localHeader arenas ix sp ∧
      localHeader arenas ix sp + size ≤ arenaEnd arenas ix ∧
      (localHeader arenas ix sp : Int) = arenaEnd arenas ix + sp := by
  have inRange : ix < arenas.length := by
    by_contra outside
    simp only [List.getD_eq_getElem?_getD, List.getElem?_eq_none (Nat.le_of_not_lt outside),
      Option.getD_none, Int.natCast_zero, Int.neg_zero] at inside
    omega
  unfold localHeader arenaEnd
  omega

theorem apart_of_ne (apart : ArenasApart arenas) {i j : Nat} (hi : i < arenas.length)
    (hj : j < arenas.length) (different : i ≠ j) :
    arenaEnd arenas i ≤ (arenas.getD j ⟨0, 0⟩).base ∨
      arenaEnd arenas j ≤ (arenas.getD i ⟨0, 0⟩).base := by
  have pairs := List.pairwise_iff_getElem.mp apart.apart
  simp only [arenaEnd, List.getD_eq_getElem?_getD, List.getElem?_eq_getElem hi,
    List.getElem?_eq_getElem hj, Option.getD_some]
  rcases Nat.lt_or_gt_of_ne different with lt | gt
  · exact pairs i j hi hj lt
  · exact (pairs j i hj hi gt).symm

theorem header_aligned (apart : ArenasApart arenas) {ix : Nat} {sp : Int}
    (inRange : ix < arenas.length) (start : sp % 8 = 0) : localHeader arenas ix sp % 8 = 0 := by
  have := apart.aligned _ (List.getElem_mem inRange)
  simp only [localHeader, arenaEnd, List.getD_eq_getElem?_getD, List.getElem?_eq_getElem inRange,
    Option.getD_some]
  omega

end ArenasApart

/-- A stack's walked local region: at least one arena, the arenas apart, `local_sp` word-aligned,
and the blocks from `local_sp` laid out as the walk meets them. -/
structure LocalRegion (arenas : List LocalArena) (mem : Nat → Nat) (localSp : Int)
    (blocks : List LocalBlock) : Prop where
  /-- `CAMLassert(loc->count > 0)`. -/
  nonempty : 0 < arenas.length
  /-- The arenas. -/
  apart : ArenasApart arenas
  /-- `local_sp` counts whole words. -/
  aligned : localSp % 8 = 0
  /-- The blocks from `local_sp`, from the last arena. -/
  layout : LocalLayout arenas mem localSp (arenas.length - 1) blocks

namespace LocalRegion

variable {arenas : List LocalArena} {mem : Nat → Nat} {localSp : Int} {blocks : List LocalBlock}

theorem header_inside (region : LocalRegion arenas mem localSp blocks) {block : LocalBlock}
    (member : block ∈ blocks) :
    block.ix < arenas.length ∧ (arenas.getD block.ix ⟨0, 0⟩).base ≤ block.header arenas ∧
      block.header arenas + block.size arenas mem ≤ arenaEnd arenas block.ix ∧
      (block.header arenas : Int) = arenaEnd arenas block.ix + block.sp ∧
      block.header arenas % 8 = 0 := by
  obtain ⟨-, -, inside, fits⟩ := region.layout.bounds block member
  obtain ⟨inRange, low, high, offset⟩ :=
    ArenasApart.header_inside inside fits (by unfold LocalBlock.size bhsizeHd; omega)
  exact ⟨inRange, low, high, offset, region.apart.header_aligned inRange
    (region.layout.aligned region.aligned block member)⟩

theorem separate_of_before (region : LocalRegion arenas mem localSp blocks) {a b : LocalBlock}
    (memberA : a ∈ blocks) (memberB : b ∈ blocks)
    (before : b.ix ≤ a.ix ∧ a.sp + (a.size arenas mem : Int) ≤ b.sp) :
    a.header arenas + a.size arenas mem ≤ b.header arenas ∨
      b.header arenas + b.size arenas mem ≤ a.header arenas := by
  obtain ⟨inA, lowA, highA, offsetA, -⟩ := region.header_inside memberA
  obtain ⟨inB, lowB, highB, offsetB, -⟩ := region.header_inside memberB
  by_cases same : a.ix = b.ix
  · rw [same] at offsetA
    omega
  · rcases region.apart.apart_of_ne inA inB same with apartAB | apartBA <;> omega

theorem pairwise_separate (region : LocalRegion arenas mem localSp blocks) :
    blocks.Pairwise fun a b => a.header arenas + a.size arenas mem ≤ b.header arenas ∨
      b.header arenas + b.size arenas mem ≤ a.header arenas :=
  region.layout.sorted.imp_of_mem fun memberA memberB before =>
    region.separate_of_before memberA memberB before

theorem separate (region : LocalRegion arenas mem localSp blocks) {a b : LocalBlock}
    (memberA : a ∈ blocks) (memberB : b ∈ blocks) (different : a ≠ b) :
    a.header arenas + a.size arenas mem ≤ b.header arenas ∨
      b.header arenas + b.size arenas mem ≤ a.header arenas :=
  region.pairwise_separate.forall (fun _ _ separate => separate.symm) memberA memberB different

theorem field_ne_header (region : LocalRegion arenas mem localSp blocks) {a b : LocalBlock}
    (memberA : a ∈ blocks) (memberB : b ∈ blocks) {k : Nat}
    (field : k < wosizeHd (mem (a.header arenas / 8))) :
    a.header arenas / 8 + 1 + k ≠ b.header arenas / 8 := by
  obtain ⟨-, -, -, -, alignedA⟩ := region.header_inside memberA
  obtain ⟨-, -, -, -, alignedB⟩ := region.header_inside memberB
  have sizeA : a.size arenas mem = 8 * (wosizeHd (mem (a.header arenas / 8)) + 1) := rfl
  by_cases same : a = b
  · subst same
    omega
  · rcases region.separate memberA memberB same with order | order <;> omega

theorem header_injective (region : LocalRegion arenas mem localSp blocks) {a b : LocalBlock}
    (memberA : a ∈ blocks) (memberB : b ∈ blocks)
    (same : a.header arenas / 8 = b.header arenas / 8) : a = b := by
  by_contra different
  obtain ⟨-, -, -, -, alignedA⟩ := region.header_inside memberA
  obtain ⟨-, -, -, -, alignedB⟩ := region.header_inside memberB
  have sizeA : 0 < a.size arenas mem := by unfold LocalBlock.size bhsizeHd; omega
  have sizeB : 0 < b.size arenas mem := by unfold LocalBlock.size bhsizeHd; omega
  rcases region.separate memberA memberB different with order | order <;> omega

end LocalRegion

end FiberRuntime
