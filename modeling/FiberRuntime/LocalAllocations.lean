import FiberRuntime.LocalScan
import Mathlib.Data.List.Nodup

/-!
# What `scan_local_allocations` does to a stack's local region

The loop of `scan_local_allocations` is the scan of the walked blocks one after the other, as long
as what it writes only recolours walked headers.  Over that, the two facts the collector relies
on: the scan reports exactly the root fields of the local blocks reachable from the marked ones,
and it leaves no walked block carrying the transient mark `colors.GARBAGE`, except a reached block
with a field pointing into itself, which keeps it.
-/

namespace FiberRuntime

/-! ## The loop as a scan of the walked blocks -/

section Loop

variable {arenas : List LocalArena} {blocks : List LocalBlock} {young : Nat → Bool}
  {garbage : Nat} {mem0 mem : Nat → Nat} {colour : LocalBlock → Nat}

theorem Recoloured.initial (coloured : LocallyColoured arenas blocks garbage mem0) :
    Recoloured arenas blocks garbage mem0 mem0 fun b => colorHd (mem0 (b.header arenas / 8)) :=
  ⟨fun _ _ => (withStatusHd_colorHd _).symm, fun _ _ => rfl, coloured⟩

theorem Recoloured.uninit (rec : Recoloured arenas blocks garbage mem0 mem colour)
    (walked : ∀ b ∈ blocks,
      withStatusHd (mem0 (b.header arenas / 8)) notMarkable ≠ localUninitHd)
    {word : Nat} (uninit : mem0 word = localUninitHd) : mem word = localUninitHd := by
  rw [rec.others word fun b member same => walked b member (by rw [same, uninit]; decide), uninit]

theorem Recoloured.header_ne_uninit (rec : Recoloured arenas blocks garbage mem0 mem colour)
    (markable : garbage < notMarkable)
    (walked : ∀ b ∈ blocks,
      withStatusHd (mem0 (b.header arenas / 8)) notMarkable ≠ localUninitHd)
    {b : LocalBlock} (member : b ∈ blocks) : mem (b.header arenas / 8) ≠ localUninitHd := by
  intro uninit
  have small : colour b < 4 := by
    rcases rec.colours b member with colour | colour <;> rw [colour] <;>
      unfold notMarkable at * <;> omega
  apply walked b member
  rw [← withStatusHd_withStatusHd _ small, ← rec.headers b member, uninit]
  decide

theorem LocalLayout.scanLocalLoop_eq (markable : garbage < notMarkable)
    (walked : ∀ b ∈ blocks,
      withStatusHd (mem0 (b.header arenas / 8)) notMarkable ≠ localUninitHd)
    {I : List LocalBlock → ScanState → Prop}
    (recoloured : ∀ rest st, I rest st →
      ∃ colour, Recoloured arenas blocks garbage mem0 st.mem colour)
    (step : ∀ b rest st st', I (b :: rest) st →
      scanBlock young garbage arenas b.ix b.sp st = .ok st' → I rest st')
    {sp : Int} {ix : Nat} {rest : List LocalBlock} (layout : LocalLayout arenas mem0 sp ix rest) :
    ∀ {fuel : Nat} {st : ScanState}, (∀ b ∈ rest, b ∈ blocks) → rest.length + ix < fuel →
      I rest st → scanLocalLoop young garbage arenas fuel sp ix st =
        some ((scanBlocks young garbage arenas rest st).mapError .fatal) := by
  induction layout with
  | done =>
    intro fuel st _ enough _
    obtain ⟨fuel, rfl⟩ : ∃ fuel', fuel = fuel' + 1 := ⟨fuel - 1, by omega⟩
    rfl
  | switch below _ uninit _ induction =>
    intro fuel st sub enough holds
    obtain ⟨fuel, rfl⟩ : ∃ fuel', fuel = fuel' + 1 := ⟨fuel - 1, by omega⟩
    obtain ⟨colour, rec⟩ := recoloured _ st holds
    simp only [scanLocalLoop, if_pos below, if_pos (rec.uninit walked uninit)]
    exact induction sub (by omega) holds
  | @block sp ix rest below _ _ _ induction =>
    intro fuel st sub enough holds
    obtain ⟨fuel, rfl⟩ : ∃ fuel', fuel = fuel' + 1 := ⟨fuel - 1, by omega⟩
    obtain ⟨colour, rec⟩ := recoloured _ st holds
    have member := sub _ (.head _)
    have notUninit := rec.header_ne_uninit markable walked member
    simp only [LocalBlock.header] at notUninit
    have size : bhsizeHd (st.mem (localHeader arenas ix sp / 8)) =
        bhsizeHd (mem0 (localHeader arenas ix sp / 8)) := by
      unfold bhsizeHd
      rw [(rec.shape markable _).2]
    simp only [scanLocalLoop, if_pos below, if_neg notUninit, size]
    cases scanned : scanBlock young garbage arenas ix sp st with
    | error message =>
      simp only [scanBlocks, scanned]
      rfl
    | ok st' =>
      simp only [List.length_cons] at enough
      simp only [scanBlocks, scanned]
      exact induction (fun b listed => sub b (.tail _ listed)) (by omega)
        (step _ _ _ _ holds scanned)

theorem scanBlocks_invariant {I : List LocalBlock → ScanState → Prop} {E : String → Prop}
    (step : ∀ b rest st, I (b :: rest) st →
      (∃ message, E message ∧ scanBlock young garbage arenas b.ix b.sp st = .error message) ∨
      ∃ st', scanBlock young garbage arenas b.ix b.sp st = .ok st' ∧ I rest st') :
    ∀ (rest : List LocalBlock) (st : ScanState), I rest st →
      (∃ message, E message ∧ scanBlocks young garbage arenas rest st = .error message) ∨
      ∃ st', scanBlocks young garbage arenas rest st = .ok st' ∧ I [] st'
  | [], st, holds => .inr ⟨st, rfl, holds⟩
  | b :: rest, st, holds => by
    rcases step b rest st holds with ⟨message, kind, failed⟩ | ⟨st', scanned, holds'⟩
    · exact .inl ⟨message, kind, by simp only [scanBlocks, failed]; rfl⟩
    · simp only [scanBlocks, scanned]
      exact scanBlocks_invariant step rest st' holds'

end Loop

/-! ## The blocks the scan reaches -/

/-- The walked blocks the scan must reach: those marked `colors.GARBAGE` at the start, and those a
scanned field of a reached block points into. -/
inductive Reached (arenas : List LocalArena) (mem0 : Nat → Nat) (young : Nat → Bool)
    (garbage : Nat) (blocks : List LocalBlock) : LocalBlock → Prop
  /-- A walked block marked at the start. -/
  | marked {c : LocalBlock} (member : c ∈ blocks)
      (colour : colorHd (mem0 (c.header arenas / 8)) = garbage) :
      Reached arenas mem0 young garbage blocks c
  /-- A walked block that a scanned field of a reached block points into. -/
  | field {a c : LocalBlock} {p : Nat} (source : Reached arenas mem0 young garbage blocks a)
      (slot : p ∈ a.fieldSlots arenas mem0) (member : c ∈ blocks)
      (into : PointsInto arenas mem0 young (mem0 (p / 8)) c) :
      Reached arenas mem0 young garbage blocks c

/-- A stack's local region as `scan_local_allocations` finds it at a collection: laid out as the
walk meets it, its walked headers unmarked or marked with a `colors.GARBAGE` other than
`NOT_MARKABLE`, and every reached block a real block whose fields, when `visit` takes them for
local blocks, point into walked blocks. -/
structure LocalHeap (arenas : List LocalArena) (mem0 : Nat → Nat) (young : Nat → Bool)
    (garbage : Nat) (localSp : Int) (blocks : List LocalBlock) : Prop where
  /-- The region and its layout. -/
  region : LocalRegion arenas mem0 localSp blocks
  /-- `colors.GARBAGE` is a colour of the heap. -/
  markable : garbage < notMarkable
  /-- Local blocks are unmarked or marked. -/
  coloured : LocallyColoured arenas blocks garbage mem0
  /-- A closure holds its info word. -/
  closures : ∀ a, Reached arenas mem0 young garbage blocks a →
    tagHd (mem0 (a.header arenas / 8)) = closureTag → 2 ≤ wosizeHd (mem0 (a.header arenas / 8))
  /-- The scannable prefix lies inside the block. -/
  scannable : ∀ a, Reached arenas mem0 young garbage blocks a →
    scannableWosizeHd (mem0 (a.header arenas / 8)) ≤ wosizeHd (mem0 (a.header arenas / 8))
  /-- No field points into an arena outside the walked blocks. -/
  pointers : ∀ a, Reached arenas mem0 young garbage blocks a → ∀ p ∈ a.fieldSlots arenas mem0,
    LocalPointer arenas mem0 young garbage blocks (mem0 (p / 8))

section Order

variable {arenas : List LocalArena} {mem0 : Nat → Nat} {young : Nat → Bool} {localSp : Int}
  {blocks done rest : List LocalBlock} {b : LocalBlock}

theorem Reached.mem {garbage : Nat} {c : LocalBlock}
    (reached : Reached arenas mem0 young garbage blocks c) : c ∈ blocks := by
  cases reached with
  | marked member _ => exact member
  | field _ _ member _ => exact member

theorem LocalBlock.size_pos (arenas : List LocalArena) (mem : Nat → Nat) (b : LocalBlock) :
    0 < b.size arenas mem := by
  unfold LocalBlock.size bhsizeHd
  omega

theorem LocalRegion.nodup (region : LocalRegion arenas mem0 localSp blocks) : blocks.Nodup :=
  region.layout.sorted.imp fun {a _} order same => by
    subst same
    have := a.size_pos arenas mem0
    omega

theorem LocalRegion.before (region : LocalRegion arenas mem0 localSp blocks)
    (split : done ++ b :: rest = blocks) {d : LocalBlock} (listed : d ∈ done) :
    d.sp + d.size arenas mem0 ≤ b.sp := by
  have sorted := region.layout.sorted
  rw [← split, List.pairwise_append] at sorted
  exact (sorted.2.2 d listed b (.head _)).2

theorem LocalRegion.after (region : LocalRegion arenas mem0 localSp blocks)
    (split : done ++ b :: rest = blocks) {d : LocalBlock} (listed : d ∈ rest) :
    b.sp + b.size arenas mem0 ≤ d.sp := by
  have sorted := region.layout.sorted
  rw [← split, List.pairwise_append, List.pairwise_cons] at sorted
  exact (sorted.2.1.1 d listed).2

theorem LocalRegion.not_mem_done (region : LocalRegion arenas mem0 localSp blocks)
    (split : done ++ b :: rest = blocks) : b ∉ done := fun listed => by
  have := region.before split listed
  have := b.size_pos arenas mem0
  omega

theorem LocalRegion.not_mem_rest (region : LocalRegion arenas mem0 localSp blocks)
    (split : done ++ b :: rest = blocks) : b ∉ rest := fun listed => by
  have := region.after split listed
  have := b.size_pos arenas mem0
  omega

theorem LocalRegion.mem_done (region : LocalRegion arenas mem0 localSp blocks)
    (split : done ++ b :: rest = blocks) {a : LocalBlock} (walked : a ∈ blocks)
    (order : a.sp + a.size arenas mem0 ≤ b.sp) : a ∈ done := by
  have := a.size_pos arenas mem0
  rw [← split] at walked
  rcases List.mem_append.mp walked with before | later
  · exact before
  rcases List.mem_cons.mp later with rfl | later
  · omega
  · have := region.after split later
    omega

theorem PointsInto.offset (region : LocalRegion arenas mem0 localSp blocks) {v : Nat}
    {c : LocalBlock} (into : PointsInto arenas mem0 young v c) (member : c ∈ blocks) :
    c.sp + 8 ≤ (v : Int) - arenaEnd arenas c.ix ∧
      (v : Int) - arenaEnd arenas c.ix < c.sp + c.size arenas mem0 := by
  obtain ⟨-, -, start, inside⟩ := into
  obtain ⟨-, -, -, offset, -⟩ := region.header_inside member
  have := blockOf_le mem0 v
  omega

end Order

/-! ## The marks the scan leaves -/

section Reset

variable {arenas : List LocalArena} {mem0 : Nat → Nat} {young : Nat → Bool} {garbage : Nat}
  {localSp : Int} {blocks : List LocalBlock}

theorem LocalHeap.marked_outcome (heap : LocalHeap arenas mem0 young garbage localSp blocks)
    {st : ScanState} {colour : LocalBlock → Nat}
    (rec : Recoloured arenas blocks garbage mem0 st.mem colour) {b : LocalBlock}
    (reached : Reached arenas mem0 young garbage blocks b) (marked : colour b = garbage) :
    FieldsOutcome arenas blocks young garbage mem0 b.sp (b.fieldSlots arenas mem0)
      (st.write (b.header arenas / 8) (withStatusHd (mem0 (b.header arenas / 8)) notMarkable))
      (Function.update colour b notMarkable) (scanBlock young garbage arenas b.ix b.sp st) :=
  scanBlock_marked rec heap.region heap.markable heap.coloured reached.mem marked
    (heap.closures b reached) (heap.scannable b reached) (heap.pointers b reached)

/-- With enough fuel, `scan_local_allocations` is the scan of the walked blocks, for any invariant
that keeps the memory recoloured and that each block's scan keeps. -/
theorem LocalHeap.scanLocalAllocations_eq
    (heap : LocalHeap arenas mem0 young garbage localSp blocks)
    {I : List LocalBlock → ScanState → Prop}
    (recoloured : ∀ rest st, I rest st →
      ∃ colour, Recoloured arenas blocks garbage mem0 st.mem colour)
    (step : ∀ b rest st st', I (b :: rest) st →
      scanBlock young garbage arenas b.ix b.sp st = .ok st' → I rest st')
    {fuel : Nat} (enough : blocks.length + arenas.length ≤ fuel) (initial : I blocks ⟨mem0, []⟩) :
    scanLocalAllocations young garbage fuel (some arenas) localSp mem0 =
      some ((scanBlocks young garbage arenas blocks ⟨mem0, []⟩).mapError .fatal) := by
  obtain ⟨count, length⟩ : ∃ count, arenas.length = count + 1 :=
    ⟨_, (Nat.succ_pred_eq_of_pos heap.region.nonempty).symm⟩
  have layout := heap.region.layout
  rw [length, Nat.add_sub_cancel] at layout
  unfold scanLocalAllocations
  simp only [length]
  exact layout.scanLocalLoop_eq heap.markable heap.region.layout.headers recoloured step
    (fun _ member => member) (by omega) initial

/-- Before each block's scan: the blocks walked so far are unmarked or have a scanned field that
points into themselves, the memory is the start's with walked headers recoloured, and every
marked block is reached. -/
def Resetting (arenas : List LocalArena) (mem0 : Nat → Nat) (young : Nat → Bool) (garbage : Nat)
    (blocks rest : List LocalBlock) (st : ScanState) : Prop :=
  ∃ done colour, done ++ rest = blocks ∧ Recoloured arenas blocks garbage mem0 st.mem colour ∧
    (∀ b ∈ done, colour b = notMarkable ∨
      ∃ p ∈ b.fieldSlots arenas mem0, PointsInto arenas mem0 young (mem0 (p / 8)) b) ∧
    ∀ c ∈ blocks, colour c = garbage → Reached arenas mem0 young garbage blocks c

theorem Resetting.step (heap : LocalHeap arenas mem0 young garbage localSp blocks)
    {b : LocalBlock} {rest : List LocalBlock} {st : ScanState}
    (holds : Resetting arenas mem0 young garbage blocks (b :: rest) st) :
    (∃ message, message = "backwards local pointer" ∧
      scanBlock young garbage arenas b.ix b.sp st = .error message) ∨
    ∃ st', scanBlock young garbage arenas b.ix b.sp st = .ok st' ∧
      Resetting arenas mem0 young garbage blocks rest st' := by
  obtain ⟨done, colour, split, rec, reset, reached⟩ := holds
  have member : b ∈ blocks := split ▸ List.mem_append_right _ (.head _)
  have fresh := heap.region.not_mem_done split
  have split' : (done ++ [b]) ++ rest = blocks := by simp [← split]
  rcases rec.colours b member with unmarked | marked
  · refine .inr ⟨st, scanBlock_unmarked rec member unmarked, done ++ [b], colour, split', rec,
      fun d listed => ?_, reached⟩
    rcases List.mem_append.mp listed with before | same
    · exact reset d before
    · rw [List.mem_singleton.mp same]
      exact .inl unmarked
  have source := reached b member marked
  rcases heap.marked_outcome rec source marked with
    ⟨failed, -⟩ | ⟨st', colour', scanned, rec', -, -, kept, first⟩
  · exact .inl ⟨_, rfl, failed⟩
  refine .inr ⟨st', scanned, done ++ [b], colour', split', rec', fun d listed => ?_,
    fun c listed marked' => ?_⟩
  · rcases List.mem_append.mp listed with before | same
    · refine (reset d before).imp_left fun unmarked => ?_
      have other : d ≠ b := fun same => fresh (same ▸ before)
      have unpointed : ∀ p ∈ b.fieldSlots arenas mem0,
          ¬PointsInto arenas mem0 young (mem0 (p / 8)) d := by
        intro p slot into
        have walked : d ∈ blocks := split ▸ List.mem_append_left _ before
        obtain ⟨q, -, into', forward⟩ := first d walked (by
          rw [Function.update_noteq other, unmarked]
          exact (Nat.ne_of_lt heap.markable).symm) p slot into
        have order := heap.region.before split before
        have := (into'.offset heap.region walked).2
        omega
      rw [kept d unpointed, Function.update_noteq other, unmarked]
    · rw [List.mem_singleton.mp same]
      by_cases pointed : ∃ p ∈ b.fieldSlots arenas mem0,
          PointsInto arenas mem0 young (mem0 (p / 8)) b
      · exact .inr pointed
      · push_neg at pointed
        exact .inl (by rw [kept b pointed, Function.update_same])
  · by_cases pointed : ∃ p ∈ b.fieldSlots arenas mem0,
        PointsInto arenas mem0 young (mem0 (p / 8)) c
    · obtain ⟨p, slot, into⟩ := pointed
      exact .field source slot listed into
    · push_neg at pointed
      rw [kept c pointed] at marked'
      have other : c ≠ b := by
        rintro rfl
        rw [Function.update_same] at marked'
        exact Nat.ne_of_lt heap.markable marked'.symm
      rw [Function.update_noteq other] at marked'
      exact reached c listed marked'

/-- `scan_local_allocations` terminates, never reads before the first arena, and either stops at
a backwards pointer or returns with every other word as it was and every walked header unmarked,
except the header of a reached block with a scanned field pointing into the block itself, which
keeps `colors.GARBAGE`. -/
theorem scan_local_allocations_resets (heap : LocalHeap arenas mem0 young garbage localSp blocks)
    {fuel : Nat} (enough : blocks.length + arenas.length ≤ fuel) :
    scanLocalAllocations young garbage fuel (some arenas) localSp mem0 =
        some (.error (.fatal "backwards local pointer")) ∨
      ∃ st, scanLocalAllocations young garbage fuel (some arenas) localSp mem0 = some (.ok st) ∧
        (∀ b ∈ blocks, st.mem (b.header arenas / 8) =
            withStatusHd (mem0 (b.header arenas / 8)) notMarkable ∨
          st.mem (b.header arenas / 8) = withStatusHd (mem0 (b.header arenas / 8)) garbage ∧
            Reached arenas mem0 young garbage blocks b ∧
            ∃ p ∈ b.fieldSlots arenas mem0, PointsInto arenas mem0 young (mem0 (p / 8)) b) ∧
        ∀ word, (∀ b ∈ blocks, b.header arenas / 8 ≠ word) → st.mem word = mem0 word := by
  have initial : Resetting arenas mem0 young garbage blocks blocks ⟨mem0, []⟩ :=
    ⟨[], _, rfl, Recoloured.initial heap.coloured, by simp, fun _ member marked =>
      .marked member marked⟩
  rw [heap.scanLocalAllocations_eq (fun _ _ ⟨_, colour, _, rec, _⟩ => ⟨colour, rec⟩)
    (fun _ _ _ _ holds scanned => by
      rcases holds.step heap with ⟨_, -, failed⟩ | ⟨_, scanned', holds'⟩
      · rw [scanned] at failed
        cases failed
      · rw [scanned] at scanned'
        cases scanned'
        exact holds') enough initial]
  rcases scanBlocks_invariant (E := fun message => message = "backwards local pointer")
      (fun _ _ _ holds => holds.step heap) blocks _ initial with
    ⟨_, rfl, failed⟩ | ⟨st, scanned, done, colour, split, rec, reset, reached⟩
  · left
    rw [failed]
    rfl
  · right
    rw [List.append_nil] at split
    subst split
    refine ⟨st, by rw [scanned]; rfl, fun b member => ?_, rec.others⟩
    rw [rec.headers b member]
    rcases rec.colours b member with unmarked | marked
    · exact .inl (by rw [unmarked])
    · exact (reset b member).imp (fun unmarked => by rw [unmarked])
        fun pointing => ⟨by rw [marked], reached b member marked, pointing⟩

/-- One local arena of eight words at byte `1024`. -/
def sampleArenas : List LocalArena := [⟨1024, 64⟩]

/-- The values young in the samples. -/
def youngSample (v : Nat) : Bool := v == 5000

/-- Two local blocks of one field each, at offsets `-32` and `-16` of the sample arena: the first
marked `colors.GARBAGE` (colour `0`) with its field pointing at the second, whose field holds a
young value. -/
def chainedLocals (word : Nat) : Nat :=
  if word = 132 then makeHeader 1 0 0 else if word = 133 then 1080
  else if word = 134 then makeHeader 1 0 notMarkable else if word = 135 then 5000 else 0

/-- The blocks the walk meets in `chainedLocals`. -/
def chainedBlocks : List LocalBlock := [⟨0, -32⟩, ⟨0, -16⟩]

theorem chained_heap : LocalHeap sampleArenas chainedLocals youngSample 0 (-32) chainedBlocks where
  region := ⟨by decide, ⟨by decide, List.pairwise_singleton _ _⟩, by decide,
    .block (by decide) (by decide) (by decide) (.block (by decide) (by decide) (by decide) .done)⟩
  markable := by decide
  coloured := by unfold LocallyColoured; decide
  closures a reached := (by decide : ∀ a ∈ chainedBlocks,
    tagHd (chainedLocals (a.header sampleArenas / 8)) = closureTag →
      2 ≤ wosizeHd (chainedLocals (a.header sampleArenas / 8))) a reached.mem
  scannable a reached := (by decide : ∀ a ∈ chainedBlocks,
    scannableWosizeHd (chainedLocals (a.header sampleArenas / 8)) ≤
      wosizeHd (chainedLocals (a.header sampleArenas / 8))) a reached.mem
  pointers a reached := (by decide : ∀ a ∈ chainedBlocks,
    ∀ p ∈ a.fieldSlots sampleArenas chainedLocals,
      LocalPointer sampleArenas chainedLocals youngSample 0 chainedBlocks (chainedLocals (p / 8)))
    a reached.mem

/-- In the chained sample, whose fields point into no block of their own, the scan marks the
second block and leaves both unmarked. -/
theorem chained_locals_reset :
    LocalHeap sampleArenas chainedLocals youngSample 0 (-32) chainedBlocks ∧
      chainedBlocks.length + sampleArenas.length ≤ 3 ∧
      (scanLocalAllocations youngSample 0 3 (some sampleArenas) (-32) chainedLocals =
          some (.error (.fatal "backwards local pointer")) ∨
        ∃ st, scanLocalAllocations youngSample 0 3 (some sampleArenas) (-32) chainedLocals =
            some (.ok st) ∧
          (∀ b ∈ chainedBlocks, st.mem (b.header sampleArenas / 8) =
              withStatusHd (chainedLocals (b.header sampleArenas / 8)) notMarkable ∨
            st.mem (b.header sampleArenas / 8) =
                withStatusHd (chainedLocals (b.header sampleArenas / 8)) 0 ∧
              Reached sampleArenas chainedLocals youngSample 0 chainedBlocks b ∧
              ∃ p ∈ b.fieldSlots sampleArenas chainedLocals,
                PointsInto sampleArenas chainedLocals youngSample (chainedLocals (p / 8)) b) ∧
          ∀ word, (∀ b ∈ chainedBlocks, b.header sampleArenas / 8 ≠ word) →
            st.mem word = chainedLocals word) :=
  ⟨chained_heap, by decide, scan_local_allocations_resets chained_heap (by decide)⟩

/-- A marked local block of one field that points at the block itself. -/
def selfLocals (word : Nat) : Nat :=
  if word = 134 then makeHeader 1 0 0 else if word = 135 then 1080 else 0

/-- A block that references itself keeps the mark: its scan resets the mark, `visit` marks it
again through its field, and the forward test `sp <= newsp` passes, the field lying above the
header. -/
theorem self_reference_keeps_mark :
    LocalHeap sampleArenas selfLocals youngSample 0 (-16) [⟨0, -16⟩] ∧
      ∃ st, scanLocalAllocations youngSample 0 2 (some sampleArenas) (-16) selfLocals =
          some (.ok st) ∧
        (⟨0, -16⟩ : LocalBlock).header sampleArenas / 8 = 134 ∧ colorHd (st.mem 134) = 0 := by
  refine ⟨⟨⟨by decide, ⟨by decide, List.pairwise_singleton _ _⟩, by decide,
    .block (by decide) (by decide) (by decide) .done⟩, by decide,
    by unfold LocallyColoured; decide, fun a reached => ?_, fun a reached => ?_,
    fun a reached => ?_⟩, _, rfl, by decide, by decide⟩
  all_goals
    rw [List.mem_singleton.mp reached.mem]
    decide

end Reset

/-! ## The roots the scan reports -/

section Report

variable {arenas : List LocalArena} {mem0 : Nat → Nat} {young : Nat → Bool} {garbage : Nat}
  {localSp : Int} {blocks : List LocalBlock}

theorem LocalBlock.mem_fieldSlots {mem : Nat → Nat} {a : LocalBlock} {p : Nat}
    (slot : p ∈ a.fieldSlots arenas mem) :
    ∃ j < scannableWosizeHd (mem (a.header arenas / 8)), p = a.fieldSlot arenas j := by
  obtain ⟨j, range, rfl⟩ := List.mem_map.mp slot
  obtain ⟨low, high⟩ := List.mem_range'_1.mp range
  refine ⟨j, ?_, rfl⟩
  unfold LocalBlock.fieldCount at high
  split_ifs at high <;> omega

theorem LocalHeap.slot_within (heap : LocalHeap arenas mem0 young garbage localSp blocks)
    {a : LocalBlock} (reached : Reached arenas mem0 young garbage blocks a) {p : Nat}
    (slot : p ∈ a.fieldSlots arenas mem0) :
    a.header arenas < p ∧ p < a.header arenas + a.size arenas mem0 := by
  obtain ⟨j, below, rfl⟩ := LocalBlock.mem_fieldSlots slot
  have := heap.scannable a reached
  unfold LocalBlock.fieldSlot LocalBlock.size bhsizeHd
  omega

theorem LocalHeap.roots_nodup (heap : LocalHeap arenas mem0 young garbage localSp blocks)
    {reached : List LocalBlock} (sub : reached.Sublist blocks)
    (all : ∀ c ∈ reached, Reached arenas mem0 young garbage blocks c) :
    (reached.flatMap (LocalBlock.rootSlots arenas mem0 young garbage)).Nodup := by
  refine List.nodup_flatMap.2 ⟨fun c _ => ?_, ?_⟩
  · refine ((List.nodup_range' _ _).map fun i j same => ?_).filter _
    unfold LocalBlock.fieldSlot at same
    omega
  · refine (heap.region.nodup.sublist sub).imp_of_mem fun {a c} memberA memberC different p inA inC => ?_
    have withinA := heap.slot_within (all a memberA) (List.mem_filter.mp inA).1
    have withinC := heap.slot_within (all c memberC) (List.mem_filter.mp inC).1
    rcases heap.region.separate (sub.subset memberA) (sub.subset memberC) different with
      order | order <;> omega

/-- Before each block's scan, when every scanned field points forward: the blocks walked so far,
`done`, are unmarked; a block ahead is marked exactly when it was marked at the start or a walked
reached block points into it; and the scan has reported, in order, the root slots of `reached`,
the walked reached blocks. -/
structure Reporting (arenas : List LocalArena) (mem0 : Nat → Nat) (young : Nat → Bool)
    (garbage : Nat) (blocks done rest : List LocalBlock) (colour : LocalBlock → Nat)
    (reached : List LocalBlock) (st : ScanState) : Prop where
  split : done ++ rest = blocks
  recoloured : Recoloured arenas blocks garbage mem0 st.mem colour
  reset : ∀ b ∈ done, colour b = notMarkable
  marks : ∀ c ∈ rest, colour c = garbage ↔ colorHd (mem0 (c.header arenas / 8)) = garbage ∨
    ∃ a ∈ done, Reached arenas mem0 young garbage blocks a ∧
      ∃ p ∈ a.fieldSlots arenas mem0, PointsInto arenas mem0 young (mem0 (p / 8)) c
  sublist : reached.Sublist done
  members : ∀ c ∈ done, c ∈ reached ↔ Reached arenas mem0 young garbage blocks c
  roots : st.roots = reached.flatMap (LocalBlock.rootSlots arenas mem0 young garbage)

theorem Reporting.step (heap : LocalHeap arenas mem0 young garbage localSp blocks)
    (forward : ∀ a, Reached arenas mem0 young garbage blocks a → ∀ p ∈ a.fieldSlots arenas mem0,
      ∀ c ∈ blocks, PointsInto arenas mem0 young (mem0 (p / 8)) c →
        a.sp + a.size arenas mem0 ≤ c.sp)
    {done rest reached : List LocalBlock} {b : LocalBlock} {colour : LocalBlock → Nat}
    {st : ScanState}
    (holds : Reporting arenas mem0 young garbage blocks done (b :: rest) colour reached st) :
    ∃ st' colour' reached', scanBlock young garbage arenas b.ix b.sp st = .ok st' ∧
      Reporting arenas mem0 young garbage blocks (done ++ [b]) rest colour' reached' st' := by
  have member : b ∈ blocks := holds.split ▸ List.mem_append_right _ (.head _)
  have fresh := heap.region.not_mem_done holds.split
  have ahead : ∀ c ∈ rest, c ≠ b := fun c listed same =>
    heap.region.not_mem_rest holds.split (same ▸ listed)
  have split : (done ++ [b]) ++ rest = blocks := by simp [← holds.split]
  have reachedIff : Reached arenas mem0 young garbage blocks b ↔ colour b = garbage := by
    rw [holds.marks b (.head _)]
    constructor
    · rintro (⟨_, initial⟩ | ⟨source, slot, _, into⟩)
      · exact .inl initial
      · exact .inr ⟨_, heap.region.mem_done holds.split source.mem
          (forward _ source _ slot b member into), source, _, slot, into⟩
    · rintro (initial | ⟨a, _, source, p, slot, into⟩)
      · exact .marked member initial
      · exact .field source slot member into
  rcases holds.recoloured.colours b member with unmarked | marked
  · have notReached : ¬Reached arenas mem0 young garbage blocks b := fun reached' => by
      rw [reachedIff.mp reached'] at unmarked
      exact Nat.ne_of_lt heap.markable unmarked
    refine ⟨st, colour, reached, scanBlock_unmarked holds.recoloured member unmarked,
      ⟨split, holds.recoloured, fun d listed => ?_, fun c listed => ?_,
        holds.sublist.trans (List.sublist_append_left _ _), fun c listed => ?_, holds.roots⟩⟩
    · rcases List.mem_append.mp listed with before | same
      · exact holds.reset d before
      · rw [List.mem_singleton.mp same]
        exact unmarked
    · rw [holds.marks c (.tail _ listed)]
      simp [or_and_right, exists_or, notReached]
    · rcases List.mem_append.mp listed with before | same
      · exact holds.members c before
      · rw [List.mem_singleton.mp same]
        exact ⟨fun listed' => absurd (holds.sublist.subset listed') fresh,
          fun reached' => absurd reached' notReached⟩
  have source := reachedIff.mpr marked
  rcases heap.marked_outcome holds.recoloured source marked with
    ⟨-, p, slot, c, walked, into, backward⟩ | ⟨st', colour', scanned, rec, roots, marks, kept, -⟩
  · have := forward b source p slot c walked into
    have := (into.offset heap.region walked).1
    omega
  have unpointed : ∀ d ∈ done ++ [b], ∀ p ∈ b.fieldSlots arenas mem0,
      ¬PointsInto arenas mem0 young (mem0 (p / 8)) d := by
    intro d listed p slot into
    have order := forward b source p slot d (split ▸ List.mem_append_left _ listed) into
    rcases List.mem_append.mp listed with before | same
    · have := heap.region.before holds.split before
      have := d.size_pos arenas mem0
      omega
    · rw [List.mem_singleton.mp same] at order
      have := b.size_pos arenas mem0
      omega
  refine ⟨st', colour', reached ++ [b], scanned, ⟨split, rec, fun d listed => ?_,
    fun c listed => ?_, holds.sublist.append (.refl _), fun c listed => ?_, ?_⟩⟩
  · rw [kept d (unpointed d listed)]
    rcases List.mem_append.mp listed with before | same
    · rw [Function.update_noteq fun same : d = b => fresh (same ▸ before), holds.reset d before]
    · rw [List.mem_singleton.mp same, Function.update_same]
  · by_cases pointed : ∃ p ∈ b.fieldSlots arenas mem0,
        PointsInto arenas mem0 young (mem0 (p / 8)) c
    · rw [marks c (split ▸ List.mem_append_right _ listed) pointed]
      exact ⟨fun _ => .inr ⟨b, List.mem_append_right _ (.head _), source, pointed⟩, fun _ => rfl⟩
    rw [kept c fun p slot into => pointed ⟨p, slot, into⟩, Function.update_noteq (ahead c listed),
      holds.marks c (.tail _ listed)]
    simp [or_and_right, exists_or, pointed]
  · rcases List.mem_append.mp listed with before | same
    · have other : c ≠ b := fun same => fresh (same ▸ before)
      simp only [List.mem_append, List.mem_singleton, other, or_false]
      exact holds.members c before
    · rw [List.mem_singleton.mp same]
      exact ⟨fun _ => source, fun _ => List.mem_append_right _ (.head _)⟩
  · rw [roots, ScanState.write_roots, holds.roots, List.flatMap_append, List.flatMap_singleton]
    rfl

theorem LocalHeap.scan_reporting (heap : LocalHeap arenas mem0 young garbage localSp blocks)
    (forward : ∀ a, Reached arenas mem0 young garbage blocks a → ∀ p ∈ a.fieldSlots arenas mem0,
      ∀ c ∈ blocks, PointsInto arenas mem0 young (mem0 (p / 8)) c →
        a.sp + a.size arenas mem0 ≤ c.sp)
    {fuel : Nat} (enough : blocks.length + arenas.length ≤ fuel) :
    ∃ st, scanLocalAllocations young garbage fuel (some arenas) localSp mem0 = some (.ok st) ∧
      ∃ colour reached, Reporting arenas mem0 young garbage blocks blocks [] colour reached st := by
  have initial : Reporting arenas mem0 young garbage blocks [] blocks
      (fun b => colorHd (mem0 (b.header arenas / 8))) [] ⟨mem0, []⟩ :=
    ⟨rfl, Recoloured.initial heap.coloured, by simp, by simp, .slnil, by simp, rfl⟩
  rw [heap.scanLocalAllocations_eq
    (I := fun rest st => ∃ done colour reached,
      Reporting arenas mem0 young garbage blocks done rest colour reached st)
    (fun _ _ ⟨_, colour, _, holds⟩ => ⟨colour, holds.recoloured⟩)
    (fun _ _ _ _ ⟨_, _, _, holds⟩ scanned => by
      obtain ⟨_, _, _, scanned', holds'⟩ := holds.step heap forward
      rw [scanned] at scanned'
      cases scanned'
      exact ⟨_, _, _, holds'⟩) enough ⟨_, _, _, initial⟩]
  rcases scanBlocks_invariant (E := fun _ => False)
      (I := fun rest st => ∃ done colour reached,
        Reporting arenas mem0 young garbage blocks done rest colour reached st)
      (fun _ _ _ ⟨_, _, _, holds⟩ => by
        obtain ⟨st', _, _, scanned, holds'⟩ := holds.step heap forward
        exact .inr ⟨st', scanned, _, _, _, holds'⟩) blocks _ ⟨_, _, _, initial⟩ with
    ⟨_, impossible, -⟩ | ⟨st, scanned, done, colour, reached, holds⟩
  · exact impossible.elim
  have split := holds.split
  rw [List.append_nil] at split
  subst done
  exact ⟨st, by rw [scanned]; rfl, colour, reached, holds⟩

theorem Reporting.mem_iff {colour : LocalBlock → Nat} {reached : List LocalBlock} {st : ScanState}
    (holds : Reporting arenas mem0 young garbage blocks blocks [] colour reached st) (c : LocalBlock) :
    c ∈ reached ↔ Reached arenas mem0 young garbage blocks c :=
  ⟨fun listed => (holds.members c (holds.sublist.subset listed)).mp listed,
    fun reached' => (holds.members c reached'.mem).mpr reached'⟩

/-- When every scanned field of a reached block that points into a walked block points forward,
`scan_local_allocations` returns without a fatal error, having passed to `f`, once each, exactly
the root slots of the reached blocks, in the order of the walk. -/
theorem scan_local_allocations_reports
    (heap : LocalHeap arenas mem0 young garbage localSp blocks)
    (forward : ∀ a, Reached arenas mem0 young garbage blocks a → ∀ p ∈ a.fieldSlots arenas mem0,
      ∀ c ∈ blocks, PointsInto arenas mem0 young (mem0 (p / 8)) c →
        a.sp + a.size arenas mem0 ≤ c.sp)
    {fuel : Nat} (enough : blocks.length + arenas.length ≤ fuel) :
    ∃ st, scanLocalAllocations young garbage fuel (some arenas) localSp mem0 = some (.ok st) ∧
      ∃ reached : List LocalBlock, reached.Sublist blocks ∧
        (∀ c, c ∈ reached ↔ Reached arenas mem0 young garbage blocks c) ∧
        st.roots = reached.flatMap (LocalBlock.rootSlots arenas mem0 young garbage) ∧
        st.roots.Nodup := by
  obtain ⟨st, scanned, _, reached, holds⟩ := heap.scan_reporting forward enough
  refine ⟨st, scanned, reached, holds.sublist, holds.mem_iff, holds.roots, ?_⟩
  rw [holds.roots]
  exact heap.roots_nodup holds.sublist fun c listed => (holds.mem_iff c).mp listed

/-- In the chained sample every scanned field points forward, and the scan reports the reached
blocks' root slots. -/
theorem chained_locals_reported :
    LocalHeap sampleArenas chainedLocals youngSample 0 (-32) chainedBlocks ∧
      (∀ a, Reached sampleArenas chainedLocals youngSample 0 chainedBlocks a →
        ∀ p ∈ a.fieldSlots sampleArenas chainedLocals, ∀ c ∈ chainedBlocks,
          PointsInto sampleArenas chainedLocals youngSample (chainedLocals (p / 8)) c →
            a.sp + a.size sampleArenas chainedLocals ≤ c.sp) ∧
      chainedBlocks.length + sampleArenas.length ≤ 3 ∧
      ∃ st, scanLocalAllocations youngSample 0 3 (some sampleArenas) (-32) chainedLocals =
          some (.ok st) ∧
        ∃ reached : List LocalBlock, reached.Sublist chainedBlocks ∧
          (∀ c, c ∈ reached ↔ Reached sampleArenas chainedLocals youngSample 0 chainedBlocks c) ∧
          st.roots = reached.flatMap (LocalBlock.rootSlots sampleArenas chainedLocals youngSample 0) ∧
          st.roots.Nodup :=
  have forward : ∀ a, Reached sampleArenas chainedLocals youngSample 0 chainedBlocks a →
      ∀ p ∈ a.fieldSlots sampleArenas chainedLocals, ∀ c ∈ chainedBlocks,
        PointsInto sampleArenas chainedLocals youngSample (chainedLocals (p / 8)) c →
          a.sp + a.size sampleArenas chainedLocals ≤ c.sp :=
    fun a reached => (by decide : ∀ a ∈ chainedBlocks,
      ∀ p ∈ a.fieldSlots sampleArenas chainedLocals, ∀ c ∈ chainedBlocks,
        PointsInto sampleArenas chainedLocals youngSample (chainedLocals (p / 8)) c →
          a.sp + a.size sampleArenas chainedLocals ≤ c.sp) a reached.mem
  ⟨chained_heap, forward, by decide,
    scan_local_allocations_reports chained_heap forward (by decide)⟩

/-- The first block's field marks the second, whose field, holding a young value, is the only
root. -/
example : ∃ st, scanLocalAllocations youngSample 0 3 (some sampleArenas) (-32) chainedLocals =
    some (.ok st) ∧ st.roots = [1080] :=
  ⟨_, rfl, rfl⟩

end Report

end FiberRuntime
