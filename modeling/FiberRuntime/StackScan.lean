import FiberRuntime.Chain
import FiberRuntime.Frames
import FiberRuntime.LocalAllocations
import FiberRuntime.Roots

/-!
# What the native `caml_scan_stack` and `caml_do_local_roots` show the collector

The native `caml_scan_stack` walks a fiber's stacks along their `parent` links.  On each stack it
runs `scan_stack_frames`, whose `visit` passes young and major-heap values to `f` and marks the
local blocks they point into with `colors.GARBAGE`; it passes the three handlers to `f`; and it runs
`scan_local_allocations`, which scans the marked local blocks, marks the blocks they point into in
turn, and resets every mark.  `caml_do_local_roots` first runs `visit` on the non-zero slots of the
C local-root tables, then `caml_scan_stack` from the current stack.  Over stacks whose frames are
cut into chunks and whose local blocks are unmarked when the scan starts, the collector is shown
the local-root and frame slots holding roots, the handler slots and the root fields of the local
blocks reachable from those slots, and memory is left as the scan found it.

The frame walk reads the stack's words as it goes, between the `visit`s of the frames' slots; as
long as no word it reads is the header of a local block, it visits the slots `Frames` computes.
-/

namespace FiberRuntime

/-! ## What recolouring keeps -/

section Recolour

variable {arenas : List LocalArena} {blocks : List LocalBlock} {young : Nat → Bool}
  {garbage : Nat} {localSp : Int} {mem0 mem : Nat → Nat} {colour : LocalBlock → Nat}

namespace Recoloured

theorem congr {colour' : LocalBlock → Nat} (rec : Recoloured arenas blocks garbage mem0 mem colour)
    (same : ∀ c ∈ blocks, colour c = colour' c) : Recoloured arenas blocks garbage mem0 mem colour' :=
  ⟨fun b member => same b member ▸ rec.headers b member, rec.others,
    fun b member => same b member ▸ rec.colours b member⟩

theorem colour_lt (rec : Recoloured arenas blocks garbage mem0 mem colour)
    (markable : garbage < notMarkable) {b : LocalBlock} (member : b ∈ blocks) : colour b < 4 := by
  rcases rec.colours b member with colour | colour <;> rw [colour] <;>
    unfold notMarkable at * <;> omega

theorem size_eq (rec : Recoloured arenas blocks garbage mem0 mem colour)
    (markable : garbage < notMarkable) (b : LocalBlock) : b.size arenas mem = b.size arenas mem0 := by
  unfold LocalBlock.size bhsizeHd
  rw [(rec.shape markable _).2]

theorem pointsInto_iff (rec : Recoloured arenas blocks garbage mem0 mem colour)
    (markable : garbage < notMarkable) {v : Nat} {c : LocalBlock} :
    PointsInto arenas mem young v c ↔ PointsInto arenas mem0 young v c := by
  unfold PointsInto
  rw [rec.blockOf_eq markable, rec.size_eq markable]

theorem looksLocal_iff (rec : Recoloured arenas blocks garbage mem0 mem colour)
    (coloured : LocallyColoured arenas blocks garbage mem0) (markable : garbage < notMarkable)
    (word : Nat) :
    (colorHd (mem word) = notMarkable ∨ colorHd (mem word) = garbage) ↔
      (colorHd (mem0 word) = notMarkable ∨ colorHd (mem0 word) = garbage) := by
  rcases rec.read word with ⟨b, member, rfl, read⟩ | ⟨-, read⟩
  · rw [read, colorHd_withStatusHd (rec.colour_lt markable member)]
    exact iff_of_true (rec.colours b member) (coloured b member)
  · rw [read]

theorem isRootValue_eq (rec : Recoloured arenas blocks garbage mem0 mem colour)
    (coloured : LocallyColoured arenas blocks garbage mem0) (markable : garbage < notMarkable)
    (v : Nat) : isRootValue mem young garbage v = isRootValue mem0 young garbage v := by
  unfold isRootValue
  rw [rec.blockOf_eq markable]
  rcases rec.read (hpVal (blockOf mem0 v)) with ⟨b, member, same, read⟩ | ⟨-, read⟩
  · have now := rec.colours b member
    have was := coloured b member
    rw [same] at was
    rw [read, colorHd_withStatusHd (rec.colour_lt markable member)]
    rcases now with now | now <;> rcases was with was | was <;> simp [now, was]
  · rw [read]

theorem localPointer_iff (rec : Recoloured arenas blocks garbage mem0 mem colour)
    (coloured : LocallyColoured arenas blocks garbage mem0) (markable : garbage < notMarkable)
    (v : Nat) :
    LocalPointer arenas mem young garbage blocks v ↔ LocalPointer arenas mem0 young garbage blocks v := by
  unfold LocalPointer
  simp only [rec.blockOf_eq markable, rec.looksLocal_iff coloured markable,
    rec.pointsInto_iff markable]

theorem slot_eq (rec : Recoloured arenas blocks garbage mem0 mem colour)
    (region : LocalRegion arenas mem0 localSp blocks) {a : LocalBlock} (member : a ∈ blocks)
    (scannable : scannableWosizeHd (mem0 (a.header arenas / 8)) ≤ wosizeHd (mem0 (a.header arenas / 8)))
    {p : Nat} (slot : p ∈ a.fieldSlots arenas mem0) : mem (p / 8) = mem0 (p / 8) := by
  obtain ⟨j, below, rfl⟩ := LocalBlock.mem_fieldSlots slot
  rw [LocalBlock.fieldSlot_div region member]
  exact rec.others _ fun b listed => (region.field_ne_header member listed (by omega)).symm

theorem fieldSlots_eq (rec : Recoloured arenas blocks garbage mem0 mem colour)
    (region : LocalRegion arenas mem0 localSp blocks) (markable : garbage < notMarkable)
    {a : LocalBlock} (member : a ∈ blocks)
    (closure : tagHd (mem0 (a.header arenas / 8)) = closureTag →
      2 ≤ wosizeHd (mem0 (a.header arenas / 8))) :
    a.fieldSlots arenas mem = a.fieldSlots arenas mem0 := by
  have small := rec.colour_lt markable member
  have header := rec.headers a member
  have start : a.fieldStart arenas mem = a.fieldStart arenas mem0 := by
    unfold LocalBlock.fieldStart
    rw [header, tagHd_withStatusHd]
    split_ifs with isClosure
    · rw [rec.others (a.header arenas / 8 + 2) fun b listed =>
        (region.field_ne_header member listed (closure isClosure)).symm]
    · rfl
  unfold LocalBlock.fieldSlots LocalBlock.fieldCount
  rw [start, header, tagHd_withStatusHd, scannableWosizeHd_withStatusHd _ small]

theorem rootSlots_eq (rec : Recoloured arenas blocks garbage mem0 mem colour)
    (region : LocalRegion arenas mem0 localSp blocks)
    (coloured : LocallyColoured arenas blocks garbage mem0) (markable : garbage < notMarkable)
    {a : LocalBlock} (member : a ∈ blocks)
    (closure : tagHd (mem0 (a.header arenas / 8)) = closureTag →
      2 ≤ wosizeHd (mem0 (a.header arenas / 8)))
    (scannable : scannableWosizeHd (mem0 (a.header arenas / 8)) ≤ wosizeHd (mem0 (a.header arenas / 8))) :
    a.rootSlots arenas mem young garbage = a.rootSlots arenas mem0 young garbage := by
  unfold LocalBlock.rootSlots
  rw [rec.fieldSlots_eq region markable member closure]
  exact List.filter_congr fun p slot => by
    rw [rec.slot_eq region member scannable slot, rec.isRootValue_eq coloured markable]

theorem restore {mem' : Nat → Nat} {colour' : LocalBlock → Nat}
    (rec : Recoloured arenas blocks garbage mem0 mem colour)
    (rec' : Recoloured arenas blocks garbage mem mem' colour') (markable : garbage < notMarkable)
    (unmarked : ∀ b ∈ blocks, colorHd (mem0 (b.header arenas / 8)) = notMarkable)
    (reset : ∀ b ∈ blocks, colour' b = notMarkable) : mem' = mem0 := by
  funext word
  rcases rec'.read word with ⟨b, member, rfl, read⟩ | ⟨others, read⟩
  · rw [read, reset b member, rec.headers b member,
      withStatusHd_withStatusHd _ (rec.colour_lt markable member), ← unmarked b member,
      withStatusHd_colorHd]
  · rw [read, rec.others word others]

end Recoloured

theorem LocalLayout.recolour (rec : Recoloured arenas blocks garbage mem0 mem colour)
    (markable : garbage < notMarkable)
    (walked : ∀ b ∈ blocks, withStatusHd (mem0 (b.header arenas / 8)) notMarkable ≠ localUninitHd)
    {sp : Int} {ix : Nat} {rest : List LocalBlock} (layout : LocalLayout arenas mem0 sp ix rest) :
    (∀ b ∈ rest, b ∈ blocks) → LocalLayout arenas mem sp ix rest := by
  induction layout with
  | done => exact fun _ => .done
  | switch below inside uninit _ induction =>
    exact fun sub => .switch below inside (rec.uninit walked uninit) (induction sub)
  | @block sp ix rest below inside header _ induction =>
    intro sub
    have member := sub _ (.head _)
    have read : mem (localHeader arenas ix sp / 8) =
        withStatusHd (mem0 (localHeader arenas ix sp / 8)) (colour ⟨ix, sp⟩) :=
      rec.headers ⟨ix, sp⟩ member
    have small := rec.colour_lt markable member
    refine .block below inside ?_ ?_
    · rwa [read, withStatusHd_withStatusHd _ small]
    · rw [read, bhsizeHd_withStatusHd _ small]
      exact induction fun b listed => sub b (.tail _ listed)

end Recolour

namespace Native

/-- What the native `caml_scan_stack` reads besides memory and the stack records. -/
structure ScanContext where
  /-- The platform. -/
  env : Env
  /-- The frame layout and the frame tables. -/
  frames : FrameEnv
  /-- The arenas of the `caml_local_arenas` at an address. -/
  arenasAt : Nat → List LocalArena
  /-- `Is_young`. -/
  young : Nat → Bool
  /-- `colors.GARBAGE` of `caml_global_heap_state`. -/
  garbage : Nat

/-- `visit` on each slot in turn. -/
def visitSlots (young : Nat → Bool) (garbage : Nat) (locals : Option (List LocalArena)) :
    List Nat → ScanState → ScanState
  | [], st => st
  | p :: slots, st => visitSlots young garbage locals slots (visit young garbage locals p st).2

/-- The walk of `scan_stack_frames` up to byte `high` with its `visit`s, reading the stack's words
as it goes, for at most `fuel` steps: the state after it, or `none` for a return address without a
descriptor or too little fuel.  The loops over a frame's live offsets visit the slots `visitFrame`
computes, in order. -/
def walkFramesVisiting (fenv : FrameEnv) (young : Nat → Bool) (garbage : Nat)
    (locals : Option (List LocalArena)) (high : Nat) :
    Nat → FrameWalk → Nat → Nat → ScanState → Option ScanState
  | 0, _, _, _, _ => none
  | fuel + 1, .nextChunk, sp, regs, st =>
      if sp = high then some st
      else walkFramesVisiting fenv young garbage locals high fuel .frame (sp + fenv.firstFrame) regs st
  | fuel + 1, .frame, sp, regs, st =>
      match fenv.descrAt st.mem sp with
      | none => none
      | some d =>
          if d.returnToC then
            walkFramesVisiting fenv young garbage locals high fuel .nextChunk
              (sp + fenv.stackHeaderSize) (fenv.savedGcRegs st.mem sp) st
          else
            walkFramesVisiting fenv young garbage locals high fuel .frame (sp + d.frameSize) regs
              (visitSlots young garbage locals (visitFrame d regs sp []) st)

/-- `scan_stack_frames(f, fflags, fdata, stack, gc_regs, locals)`, for at most `fuel` steps. -/
def scanStackFrames (ctx : ScanContext) (locals : Option (List LocalArena)) (fuel : Nat)
    (info : StackInfo) (gcRegs : Nat) (st : ScanState) : Option ScanState :=
  walkFramesVisiting ctx.frames ctx.young ctx.garbage locals (8 * ctx.env.stackHigh info) fuel
    .nextChunk (8 * info.sp) gcRegs st

/-- `&Stack_handle_value(stack)`, `&Stack_handle_exception(stack)` and
`&Stack_handle_effect(stack)`, as byte addresses. -/
def handlerSlots (info : StackInfo) : List Nat :=
  [8 * info.handler, 8 * info.handler + 8, 8 * info.handler + 16]

/-- One iteration of the loop of the native `caml_scan_stack`, on the stack at `stack` with record
`info`, each inner loop taking at most `steps` iterations: `caml_refresh_locals`,
`scan_stack_frames`, `f` on the three handlers, and `scan_local_allocations` from the refreshed
`local_sp`. -/
def scanStack (ctx : ScanContext) (steps stack : Nat) (info : StackInfo) (gcRegs : Nat)
    (st : ScanState) : Option (Except LocalScanFailure ScanState) :=
  let locals := info.localArenas.map ctx.arenasAt
  match scanStackFrames ctx locals steps info gcRegs st with
  | none => none
  | some st =>
      let st := ((st.report (8 * info.handler)).report (8 * info.handler + 8)).report
        (8 * info.handler + 16)
      (scanLocalAllocations ctx.young ctx.garbage steps locals
          (ctx.env.refreshLocals stack info).localSp st.mem).map
        fun result => result.map fun st' => ⟨st'.mem, st.roots ++ st'.roots⟩

/-- The native `caml_scan_stack(f, fflags, fdata, stack, gc_regs)` from `stack` on, for at most
`fuel` iterations of its loop: the memory after it and the slots passed to `f`, or `none` if it
reads a stack with no record or runs out of iterations. -/
def camlScanStack (ctx : ScanContext) (steps : Nat) (records : Stacks) (gcRegs : Nat) :
    Nat → Option Nat → ScanState → Option (Except LocalScanFailure ScanState)
  | 0, _, _ => none
  | _ + 1, none, st => some (.ok st)
  | fuel + 1, some stack, st =>
      match records stack with
      | none => none
      | some info =>
          match scanStack ctx steps stack info gcRegs st with
          | some (.ok st) => camlScanStack ctx steps records gcRegs fuel info.parent st
          | other => other

/-- The loop `for (j = 0; j < lr->nitems; j++)` of the native `caml_do_local_roots` over `count`
slots of the table at word `table`, from `j`: `visit` on every non-zero slot. -/
def visitRootsTable (young : Nat → Bool) (garbage : Nat) (locals : Option (List LocalArena))
    (table : Nat) : Nat → Nat → ScanState → ScanState
  | 0, _, st => st
  | count + 1, j, st =>
      visitRootsTable young garbage locals table count (j + 1)
        (if st.mem (table + j) ≠ 0 then (visit young garbage locals (8 * (table + j)) st).2 else st)

/-- The loops of the native `caml_do_local_roots` over `local_roots`, block after block along
`next`, table after table. -/
def visitLocalRoots (young : Nat → Bool) (garbage : Nat) (locals : Option (List LocalArena)) :
    List RootsBlock → ScanState → ScanState
  | [], st => st
  | block :: blocks, st =>
      visitLocalRoots young garbage locals blocks
        (block.tables.foldl (fun st table => visitRootsTable young garbage locals table block.nitems 0 st)
          st)

/-- The native `caml_do_local_roots(f, fflags, fdata, local_roots, current_stack, v_gc_regs)` on the
current stack `stack`, `caml_scan_stack` running its loop at most `fuel` times and each inner loop
at most `steps`: `caml_refresh_locals(current_stack)`, `visit` on the non-zero local roots, then
`caml_scan_stack`. -/
def camlDoLocalRoots (ctx : ScanContext) (steps fuel : Nat) (records : Stacks) (gcRegs : Nat)
    (localRoots : List RootsBlock) (stack : Nat) (st : ScanState) :
    Option (Except LocalScanFailure ScanState) :=
  match records stack with
  | none => none
  | some info =>
      camlScanStack ctx steps records gcRegs fuel (some stack)
        (visitLocalRoots ctx.young ctx.garbage (info.localArenas.map ctx.arenasAt) localRoots st)

/-- The words of the local-root tables, block by block and table by table. -/
def tableWords (blocks : List RootsBlock) : List Nat :=
  blocks.flatMap fun block => block.tables.flatMap fun table => List.range' table block.nitems

/-- The slots of the local-root tables holding a non-zero value, as byte addresses, in the order of
the loops. -/
def localRootSlots (mem : Nat → Nat) (blocks : List RootsBlock) : List Nat :=
  ((tableWords blocks).filter fun w => mem w ≠ 0).map fun w => 8 * w

/-! ## The stacks the scan meets -/

/-- The walked local blocks the scan of a stack must reach: those the value of a slot visited before
the local scan points into, and those a scanned field of a reached block points into. -/
inductive StackReached (arenas : List LocalArena) (mem0 : Nat → Nat) (young : Nat → Bool)
    (blocks : List LocalBlock) (slots : List Nat) : LocalBlock → Prop
  /-- A walked block a visited slot points into. -/
  | root {p : Nat} {c : LocalBlock} (slot : p ∈ slots) (member : c ∈ blocks)
      (into : PointsInto arenas mem0 young (mem0 (p / 8)) c) :
      StackReached arenas mem0 young blocks slots c
  /-- A walked block a scanned field of a reached block points into. -/
  | field {a c : LocalBlock} {p : Nat} (source : StackReached arenas mem0 young blocks slots a)
      (slot : p ∈ a.fieldSlots arenas mem0) (member : c ∈ blocks)
      (into : PointsInto arenas mem0 young (mem0 (p / 8)) c) :
      StackReached arenas mem0 young blocks slots c

/-- A stack's local region at a collection, with the slots passed to `visit` before its local scan:
laid out as the walk meets it with every walked block unmarked; no visited slot on a walked header;
every visited slot and every scanned field of a reached block that `visit` takes for a local block
pointing into a walked block; and every reached block a real block whose scanned fields point
forward. -/
structure LocalStack (arenas : List LocalArena) (mem0 : Nat → Nat) (young : Nat → Bool)
    (garbage : Nat) (localSp : Int) (blocks : List LocalBlock) (slots : List Nat) : Prop where
  /-- The region and its layout. -/
  region : LocalRegion arenas mem0 localSp blocks
  /-- `colors.GARBAGE` is a colour of the heap. -/
  markable : garbage < notMarkable
  /-- Local blocks are `NOT_MARKABLE` between collections. -/
  unmarked : ∀ b ∈ blocks, colorHd (mem0 (b.header arenas / 8)) = notMarkable
  /-- The visited slots lie outside the walked headers. -/
  apart : ∀ p ∈ slots, ∀ b ∈ blocks, b.header arenas / 8 ≠ p / 8
  /-- No visited slot points into an arena outside the walked blocks. -/
  roots : ∀ p ∈ slots, LocalPointer arenas mem0 young garbage blocks (mem0 (p / 8))
  /-- A closure holds its info word. -/
  closures : ∀ a, StackReached arenas mem0 young blocks slots a →
    tagHd (mem0 (a.header arenas / 8)) = closureTag → 2 ≤ wosizeHd (mem0 (a.header arenas / 8))
  /-- The scannable prefix lies inside the block. -/
  scannable : ∀ a, StackReached arenas mem0 young blocks slots a →
    scannableWosizeHd (mem0 (a.header arenas / 8)) ≤ wosizeHd (mem0 (a.header arenas / 8))
  /-- No field points into an arena outside the walked blocks. -/
  pointers : ∀ a, StackReached arenas mem0 young blocks slots a → ∀ p ∈ a.fieldSlots arenas mem0,
    LocalPointer arenas mem0 young garbage blocks (mem0 (p / 8))
  /-- A local block points only at blocks allocated before it. -/
  forward : ∀ a, StackReached arenas mem0 young blocks slots a → ∀ p ∈ a.fieldSlots arenas mem0,
    ∀ c ∈ blocks, PointsInto arenas mem0 young (mem0 (p / 8)) c → a.sp + a.size arenas mem0 ≤ c.sp

/-- The local arenas of a stack as `caml_refresh_locals` returns them: none, or those recorded at
`local_arenas`, with a local region as `LocalStack` says. -/
inductive StackLocals (ctx : ScanContext) (mem0 : Nat → Nat) (localArenas : Option Nat)
    (localSp : Int) (slots : List Nat) : List LocalArena → List LocalBlock → Prop
  /-- No local arenas. -/
  | none (absent : localArenas = none) : StackLocals ctx mem0 localArenas localSp slots [] []
  /-- The arenas at `local_arenas`. -/
  | some {loc : Nat} {blocks : List LocalBlock} (present : localArenas = some loc)
      (heap : LocalStack (ctx.arenasAt loc) mem0 ctx.young ctx.garbage localSp blocks slots) :
      StackLocals ctx mem0 localArenas localSp slots (ctx.arenasAt loc) blocks

/-- A stack as the native scan finds it, after `visit` on the slots `pre`: its frames cut into chunks
from `sp` up to `Stack_high`, the first with the register area `gcRegs`; its local arenas, with the
slots of `pre` and of the frames; and no word the frame walk reads on a walked header. -/
structure NativeStack (ctx : ScanContext) (mem0 : Nat → Nat) (gcRegs stack : Nat) (info : StackInfo)
    (pre : List Nat) (chunks : List (Nat × List (Nat × FrameDescr))) (arenas : List LocalArena)
    (blocks : List LocalBlock) : Prop where
  /-- The frames. -/
  frames : StackChunks ctx.frames mem0 (8 * ctx.env.stackHigh info) (8 * info.sp) gcRegs chunks
  /-- The local arenas. -/
  locals : StackLocals ctx mem0 info.localArenas (ctx.env.refreshLocals stack info).localSp
    (pre ++ chunkRoots chunks) arenas blocks
  /-- The stack's words lie outside the walked headers. -/
  reads : ∀ w ∈ chunkReads ctx.frames (8 * info.sp) chunks, ∀ b ∈ blocks, b.header arenas / 8 ≠ w

/-- The slots the scan of a stack passes to `f`, in order: the frame slots holding a young or
major-heap value, the handler slots, and the root fields of the reached local blocks. -/
def stackRootSlots (ctx : ScanContext) (mem0 : Nat → Nat) (info : StackInfo) (slots : List Nat)
    (arenas : List LocalArena) (reached : List LocalBlock) : List Nat :=
  slots.filter (fun p => isRootValue mem0 ctx.young ctx.garbage (mem0 (p / 8))) ++
    handlerSlots info ++ reached.flatMap (LocalBlock.rootSlots arenas mem0 ctx.young ctx.garbage)

/-! ## The frame scan's visits -/

section Visits

variable {arenas : List LocalArena} {blocks : List LocalBlock} {young : Nat → Bool}
  {garbage : Nat} {localSp : Int} {mem0 : Nat → Nat}

theorem visit_none (young : Nat → Bool) (garbage p : Nat) (st : ScanState) :
    visit young garbage none p st =
      (none, if isRootValue st.mem young garbage (st.mem (p / 8)) then st.report p else st) := by
  unfold visit isRootValue
  by_cases odd : st.mem (p / 8) % 2 = 0
  · by_cases isYoung : young (st.mem (p / 8)) = true
    · simp [odd, isYoung]
    · by_cases marked : colorHd (st.mem (hpVal (blockOf st.mem (st.mem (p / 8))))) = garbage <;>
        by_cases unmarked : colorHd (st.mem (hpVal (blockOf st.mem (st.mem (p / 8))))) =
          notMarkable <;> simp [odd, isYoung, marked, unmarked]
  · simp [odd]

theorem visitSlots_none (young : Nat → Bool) (garbage : Nat) :
    ∀ (slots : List Nat) (st : ScanState), visitSlots young garbage none slots st =
      ⟨st.mem, st.roots ++ slots.filter fun p => isRootValue st.mem young garbage (st.mem (p / 8))⟩
  | [], st => by simp [visitSlots]
  | p :: slots, st => by
    rw [visitSlots, visit_none, visitSlots_none]
    by_cases root : isRootValue st.mem young garbage (st.mem (p / 8)) = true <;>
      simp [root, List.filter_cons]

/-- The colours after `visit` on the frame slots: `colors.GARBAGE` on every walked block a slot
points into, the colour before on the others. -/
def visitedColour (arenas : List LocalArena) (mem0 : Nat → Nat) (young : Nat → Bool)
    (garbage : Nat) (slots : List Nat) (colour : LocalBlock → Nat) (c : LocalBlock) : Nat :=
  if ∃ p ∈ slots, PointsInto arenas mem0 young (mem0 (p / 8)) c then garbage else colour c

theorem visitedColour_skip {slots : List Nat} {colour : LocalBlock → Nat} {p : Nat}
    (nowhere : ∀ d ∈ blocks, ¬PointsInto arenas mem0 young (mem0 (p / 8)) d) :
    ∀ d ∈ blocks, visitedColour arenas mem0 young garbage slots colour d =
      visitedColour arenas mem0 young garbage (p :: slots) colour d := fun d member => by
  simp [visitedColour, nowhere d member]

theorem visitedColour_mark {slots : List Nat} {colour colour' : LocalBlock → Nat} {p : Nat}
    {c : LocalBlock} (into : PointsInto arenas mem0 young (mem0 (p / 8)) c)
    (only : ∀ d ∈ blocks, PointsInto arenas mem0 young (mem0 (p / 8)) d → d = c)
    (marked : colour' c = garbage) (others : ∀ d, d ≠ c → colour' d = colour d) :
    ∀ d ∈ blocks, visitedColour arenas mem0 young garbage slots colour' d =
      visitedColour arenas mem0 young garbage (p :: slots) colour d := fun d member => by
  by_cases same : d = c
  · subst same
    simp [visitedColour, into, marked]
  · have notInto : ¬PointsInto arenas mem0 young (mem0 (p / 8)) d := fun into' =>
      same (only d member into')
    simp [visitedColour, notInto, others d same]

theorem visitSlots_spec (region : LocalRegion arenas mem0 localSp blocks)
    (markable : garbage < notMarkable) (coloured : LocallyColoured arenas blocks garbage mem0) :
    ∀ (slots : List Nat) (st : ScanState) (colour : LocalBlock → Nat),
      Recoloured arenas blocks garbage mem0 st.mem colour →
      (∀ p ∈ slots, ∀ b ∈ blocks, b.header arenas / 8 ≠ p / 8) →
      (∀ p ∈ slots, LocalPointer arenas mem0 young garbage blocks (mem0 (p / 8))) →
      Recoloured arenas blocks garbage mem0 (visitSlots young garbage (some arenas) slots st).mem
          (visitedColour arenas mem0 young garbage slots colour) ∧
        (visitSlots young garbage (some arenas) slots st).roots =
          st.roots ++ slots.filter fun p => isRootValue mem0 young garbage (mem0 (p / 8))
  | [], st, colour, rec, _, _ => ⟨rec.congr fun c _ => by simp [visitedColour], by simp [visitSlots]⟩
  | p :: slots, st, colour, rec, apart, pointers => by
    have slot : st.mem (p / 8) = mem0 (p / 8) := rec.others _ (apart p (.head _))
    have apart' := fun q listed => apart q (.tail _ listed)
    have pointers' := fun q listed => pointers q (.tail _ listed)
    rw [visitSlots]
    by_cases root : isRootValue mem0 young garbage (mem0 (p / 8)) = true
    · have nowhere : ∀ d ∈ blocks, ¬PointsInto arenas mem0 young (mem0 (p / 8)) d :=
        fun d member into => by rw [into.not_root coloured member] at root; cases root
      rw [visit_root rec markable coloured slot root]
      obtain ⟨rec', roots⟩ := visitSlots_spec region markable coloured slots (st.report p) colour rec
        apart' pointers'
      exact ⟨rec'.congr (visitedColour_skip nowhere), by simp [roots, root, List.filter_cons]⟩
    have notRoot : isRootValue mem0 young garbage (mem0 (p / 8)) = false := by simpa using root
    by_cases pointed : ∃ c ∈ blocks, PointsInto arenas mem0 young (mem0 (p / 8)) c
    · obtain ⟨c, member, into⟩ := pointed
      have only : ∀ d ∈ blocks, PointsInto arenas mem0 young (mem0 (p / 8)) d → d = c :=
        fun d listed into' => into'.unique region into listed member
      rw [visit_into rec region markable slot member into]
      split_ifs with marked
      · obtain ⟨rec', roots⟩ := visitSlots_spec region markable coloured slots _ colour rec apart'
          pointers'
        exact ⟨rec'.congr (visitedColour_mark into only marked fun _ _ => rfl),
          by simp [roots, notRoot, List.filter_cons]⟩
      · obtain ⟨rec', roots⟩ := visitSlots_spec region markable coloured slots
          (st.write (c.header arenas / 8) (withStatusHd (mem0 (c.header arenas / 8)) garbage)) _
          (rec.mark region member garbage (.inr rfl)) apart' pointers'
        exact ⟨rec'.congr (visitedColour_mark into only (Function.update_same _ _ _)
          fun d other => Function.update_noteq other _ _), by simp [roots, notRoot, List.filter_cons]⟩
    · push_neg at pointed
      rw [visit_other rec markable coloured slot notRoot (pointers p (.head _)) pointed]
      obtain ⟨rec', roots⟩ := visitSlots_spec region markable coloured slots _ colour rec apart'
        pointers'
      exact ⟨rec'.congr (visitedColour_skip pointed), by simp [roots, notRoot, List.filter_cons]⟩

theorem visitSlots_append (young : Nat → Bool) (garbage : Nat) (locals : Option (List LocalArena)) :
    ∀ (first rest : List Nat) (st : ScanState), visitSlots young garbage locals (first ++ rest) st =
      visitSlots young garbage locals rest (visitSlots young garbage locals first st)
  | [], _, _ => rfl
  | _ :: first, rest, _ => visitSlots_append young garbage locals first rest _

theorem visitSlots_invariant {locals : Option (List LocalArena)} {I : ScanState → Prop}
    {slots : List Nat} (step : ∀ p ∈ slots, ∀ st, I st → I (visit young garbage locals p st).2) :
    ∀ st, I st → I (visitSlots young garbage locals slots st) := by
  induction slots with
  | nil => exact fun _ holds => holds
  | cons p slots induction =>
    exact fun st holds =>
      induction (fun q listed => step q (.tail _ listed)) _ (step p (.head _) st holds)

end Visits

end Native

/-! ## The frame walk with its visits -/

section Walk

open Native

variable {fenv : FrameEnv} {young : Nat → Bool} {garbage : Nat}
  {locals : Option (List LocalArena)} {high : Nat} {mem0 : Nat → Nat} {I : ScanState → Prop}

theorem ChunkFrames.walkVisiting {sp last : Nat} {frames : List (Nat × FrameDescr)}
    (inChunk : ChunkFrames fenv mem0 sp frames last) (regs fuel : Nat)
    (reads : ∀ st, I st → ∀ w ∈ framesReads fenv frames last, st.mem w = mem0 w)
    (step : ∀ p ∈ frames.flatMap (fun frame => frame.2.liveRoots regs frame.1), ∀ st, I st →
      I (visit young garbage locals p st).2) :
    ∀ st, I st → walkFramesVisiting fenv young garbage locals high (frames.length + fuel + 1) .frame
        sp regs st =
      walkFramesVisiting fenv young garbage locals high fuel .nextChunk (last + fenv.stackHeaderSize)
        (fenv.savedGcRegs mem0 last)
        (visitSlots young garbage locals (frames.flatMap fun frame => frame.2.liveRoots regs frame.1)
          st) := by
  induction inChunk with
  | @toC sp d found returnToC =>
    intro st holds
    have address := reads st holds ((sp - fenv.returnAddressBelow) / 8) (by simp [framesReads])
    have saved := reads st holds ((sp + fenv.gcRegsAbove) / 8) (by simp [framesReads])
    have found' : fenv.descrAt st.mem sp = some d := by
      rw [← found, FrameEnv.descrAt, FrameEnv.descrAt, FrameEnv.savedReturnAddress,
        FrameEnv.savedReturnAddress, address]
    simp [walkFramesVisiting, found', returnToC, FrameEnv.savedGcRegs, saved, visitSlots]
  | @ocaml sp last d frames found ocaml _ induction =>
    intro st holds
    have address := reads st holds ((sp - fenv.returnAddressBelow) / 8) (.head _)
    have found' : fenv.descrAt st.mem sp = some d := by
      rw [← found, FrameEnv.descrAt, FrameEnv.descrAt, FrameEnv.savedReturnAddress,
        FrameEnv.savedReturnAddress, address]
    rw [show ((sp, d) :: frames).length + fuel + 1 = (frames.length + fuel + 1) + 1 by
      simp only [List.length_cons]; omega, walkFramesVisiting]
    simp only [found', ocaml, Bool.false_eq_true, ↓reduceIte, visitFrame_eq, List.nil_append]
    rw [induction (fun st holds w listed => reads st holds w (.tail _ listed))
        (fun p listed => step p (List.mem_append_right _ listed)) _
        (visitSlots_invariant (fun p listed => step p (List.mem_append_left _ listed)) st holds),
      List.flatMap_cons, visitSlots_append]

theorem StackChunks.walkVisiting {sp regs : Nat} {chunks : List (Nat × List (Nat × FrameDescr))}
    (decomposed : StackChunks fenv mem0 high sp regs chunks) (fuel : Nat)
    (reads : ∀ st, I st → ∀ w ∈ chunkReads fenv sp chunks, st.mem w = mem0 w)
    (step : ∀ p ∈ chunkRoots chunks, ∀ st, I st → I (visit young garbage locals p st).2) :
    ∀ st, I st → walkFramesVisiting fenv young garbage locals high (chunkSteps chunks + fuel)
        .nextChunk sp regs st =
      some (visitSlots young garbage locals (chunkRoots chunks) st) := by
  induction decomposed with
  | top => exact fun _ _ => by simp [chunkSteps, chunkRoots, Nat.add_comm 1, walkFramesVisiting, visitSlots]
  | @chunk sp regs last frames chunks below inChunk _ induction =>
    intro st holds
    have split : chunkReads fenv sp ((regs, frames) :: chunks) =
        framesReads fenv frames last ++ chunkReads fenv (last + fenv.stackHeaderSize) chunks := by
      rw [chunkReads, ← inChunk.last_eq]
    rw [show chunkSteps ((regs, frames) :: chunks) + fuel =
        (frames.length + (chunkSteps chunks + fuel) + 1) + 1 by
      simp only [chunkSteps]; omega, walkFramesVisiting]
    simp only [Nat.ne_of_lt below, ↓reduceIte]
    have first : ∀ p ∈ frames.flatMap (fun frame => frame.2.liveRoots regs frame.1), ∀ st, I st →
        I (visit young garbage locals p st).2 := fun p listed => step p (List.mem_append_left _ listed)
    rw [inChunk.walkVisiting regs _
        (fun st holds w listed => reads st holds w (split ▸ List.mem_append_left _ listed)) first st
        holds,
      induction (fun st holds w listed => reads st holds w (split ▸ List.mem_append_right _ listed))
        (fun p listed => step p (List.mem_append_right _ listed)) _
        (visitSlots_invariant first st holds)]
    simp only [chunkRoots, List.flatMap_cons, visitSlots_append]

end Walk

namespace Native

/-! ## The local roots -/

section LocalRoots

variable {young : Nat → Bool} {garbage : Nat} {locals : Option (List LocalArena)}
  {mem0 : Nat → Nat} {I : ScanState → Prop}

theorem visitRootsTable_eq (table : Nat) :
    ∀ (count j : Nat) (st : ScanState),
      (∀ st, I st → ∀ w ∈ List.range' (table + j) count, st.mem w = mem0 w) →
      (∀ w ∈ List.range' (table + j) count, mem0 w ≠ 0 → ∀ st, I st →
        I (visit young garbage locals (8 * w) st).2) →
      I st → visitRootsTable young garbage locals table count j st =
        visitSlots young garbage locals
          (((List.range' (table + j) count).filter fun w => mem0 w ≠ 0).map fun w => 8 * w) st
  | 0, _, _, _, _, _ => rfl
  | count + 1, j, st, reads, step, holds => by
    have words : List.range' (table + j) (count + 1) = (table + j) :: List.range' (table + (j + 1)) count := by
      rw [List.range'_succ, Nat.add_assoc]
    rw [words] at reads step
    have reads' := fun st holds w listed => reads st holds w (List.mem_cons_of_mem _ listed)
    have step' := fun w listed => step w (List.mem_cons_of_mem _ listed)
    rw [visitRootsTable, reads st holds _ (.head _), words, List.filter_cons]
    by_cases zero : mem0 (table + j) = 0
    · simp only [zero, ne_eq, not_true_eq_false, ↓reduceIte, decide_False]
      exact visitRootsTable_eq table count (j + 1) st reads' step' holds
    · simp only [zero, ne_eq, not_false_eq_true, ↓reduceIte, decide_True, List.map_cons]
      exact visitRootsTable_eq table count (j + 1) _ reads' step' (step _ (.head _) zero st holds)

theorem visitLocalRoots_eq :
    ∀ (blocks : List RootsBlock) (st : ScanState),
      (∀ st, I st → ∀ w ∈ tableWords blocks, st.mem w = mem0 w) →
      (∀ w ∈ tableWords blocks, mem0 w ≠ 0 → ∀ st, I st → I (visit young garbage locals (8 * w) st).2) →
      I st → visitLocalRoots young garbage locals blocks st =
        visitSlots young garbage locals (localRootSlots mem0 blocks) st
  | [], _, _, _, _ => rfl
  | block :: blocks, st, reads, step, holds => by
    have tables : ∀ (tables : List Nat) (st : ScanState),
        (∀ st, I st → ∀ w ∈ tableWords [⟨block.nitems, tables⟩], st.mem w = mem0 w) →
        (∀ w ∈ tableWords [⟨block.nitems, tables⟩], mem0 w ≠ 0 → ∀ st, I st →
          I (visit young garbage locals (8 * w) st).2) →
        I st → tables.foldl (fun st table => visitRootsTable young garbage locals table block.nitems 0 st) st =
          visitSlots young garbage locals (localRootSlots mem0 [⟨block.nitems, tables⟩]) st := by
      intro tables
      induction tables with
      | nil => exact fun _ _ _ _ => rfl
      | cons table tables induction =>
        intro st reads step holds
        have first : ∀ w ∈ List.range' table block.nitems, w ∈ tableWords [⟨block.nitems, table :: tables⟩] :=
          fun w listed => by simp only [tableWords, List.flatMap_cons, List.flatMap_nil, List.append_nil]; exact List.mem_append_left _ listed
        have later : ∀ w ∈ tableWords [⟨block.nitems, tables⟩], w ∈ tableWords [⟨block.nitems, table :: tables⟩] :=
          fun w listed => by
            simp only [tableWords, List.flatMap_cons, List.flatMap_nil, List.append_nil] at listed ⊢
            exact List.mem_append_right _ listed
        rw [List.foldl_cons, visitRootsTable_eq table block.nitems 0 st
            (fun st holds w listed => reads st holds w (first w (by simpa using listed)))
            (fun w listed => step w (first w (by simpa using listed))) holds,
          induction _ (fun st holds w listed => reads st holds w (later w listed))
            (fun w listed => step w (later w listed))
            (visitSlots_invariant (fun p listed => by
              obtain ⟨w, kept, rfl⟩ := List.mem_map.mp listed
              obtain ⟨listed, nonzero⟩ := List.mem_filter.mp kept
              exact step w (first w (by simpa using listed)) (by simpa using nonzero)) st holds),
          ← visitSlots_append]
        simp [localRootSlots, tableWords, List.filter_append]
    have words : tableWords (block :: blocks) = tableWords [⟨block.nitems, block.tables⟩] ++ tableWords blocks := by
      simp [tableWords]
    have first := fun w (listed : w ∈ tableWords [⟨block.nitems, block.tables⟩]) =>
      words ▸ List.mem_append_left (tableWords blocks) listed
    have later := fun w (listed : w ∈ tableWords blocks) =>
      words ▸ List.mem_append_right (tableWords [⟨block.nitems, block.tables⟩]) listed
    rw [visitLocalRoots, tables block.tables st (fun st holds w listed => reads st holds w (first w listed))
        (fun w listed => step w (first w listed)) holds,
      visitLocalRoots_eq blocks _ (fun st holds w listed => reads st holds w (later w listed))
        (fun w listed => step w (later w listed))
        (visitSlots_invariant (fun p listed => by
          obtain ⟨w, kept, rfl⟩ := List.mem_map.mp listed
          obtain ⟨listed, nonzero⟩ := List.mem_filter.mp kept
          exact step w (first w listed) (by simpa using nonzero)) st holds),
      ← visitSlots_append, localRootSlots, localRootSlots, localRootSlots, words, List.filter_append,
      List.map_append]

end LocalRoots

/-! ## The local scan after the frame scan -/

section Reach

variable {arenas : List LocalArena} {blocks : List LocalBlock} {young : Nat → Bool}
  {garbage : Nat} {localSp : Int} {mem0 mem1 : Nat → Nat} {slots : List Nat}

theorem StackReached.mem {c : LocalBlock}
    (reached : StackReached arenas mem0 young blocks slots c) : c ∈ blocks := by
  cases reached with
  | root _ member _ => exact member
  | field _ _ member _ => exact member

/-- The memory the frame scan leaves: the start's, with `colors.GARBAGE` on the walked blocks a frame
slot points into. -/
abbrev FrameColoured (arenas : List LocalArena) (mem0 : Nat → Nat) (young : Nat → Bool)
    (garbage : Nat) (blocks : List LocalBlock) (slots : List Nat) (mem1 : Nat → Nat) : Prop :=
  Recoloured arenas blocks garbage mem0 mem1
    (visitedColour arenas mem0 young garbage slots fun b => colorHd (mem0 (b.header arenas / 8)))

theorem StackReached.mono {slots' : List Nat} (sub : ∀ p ∈ slots, p ∈ slots') {c : LocalBlock}
    (reached : StackReached arenas mem0 young blocks slots c) :
    StackReached arenas mem0 young blocks slots' c := by
  induction reached with
  | root slot member into => exact .root (sub _ slot) member into
  | field _ slot member into induction => exact .field induction slot member into

namespace LocalStack

theorem mono {slots' : List Nat} (heap : LocalStack arenas mem0 young garbage localSp blocks slots')
    (sub : ∀ p ∈ slots, p ∈ slots') : LocalStack arenas mem0 young garbage localSp blocks slots where
  region := heap.region
  markable := heap.markable
  unmarked := heap.unmarked
  apart p listed := heap.apart p (sub p listed)
  roots p listed := heap.roots p (sub p listed)
  closures a reached := heap.closures a (reached.mono sub)
  scannable a reached := heap.scannable a (reached.mono sub)
  pointers a reached := heap.pointers a (reached.mono sub)
  forward a reached := heap.forward a (reached.mono sub)

theorem coloured (heap : LocalStack arenas mem0 young garbage localSp blocks slots) :
    LocallyColoured arenas blocks garbage mem0 :=
  fun b member => .inl (heap.unmarked b member)

theorem reached_iff (heap : LocalStack arenas mem0 young garbage localSp blocks slots)
    (rec : FrameColoured arenas mem0 young garbage blocks slots mem1) (c : LocalBlock) :
    Reached arenas mem1 young garbage blocks c ↔ StackReached arenas mem0 young blocks slots c := by
  constructor
  · intro reached
    induction reached with
    | marked member colour =>
      rw [rec.headers _ member, colorHd_withStatusHd (rec.colour_lt heap.markable member)] at colour
      unfold visitedColour at colour
      split_ifs at colour with pointed
      · obtain ⟨p, slot, into⟩ := pointed
        exact .root slot member into
      · dsimp only at colour
        rw [heap.unmarked _ member] at colour
        exact absurd colour (Nat.ne_of_gt heap.markable)
    | field _ slot member into induction =>
      have walked := induction.mem
      rw [rec.fieldSlots_eq heap.region heap.markable walked (heap.closures _ induction)] at slot
      rw [rec.slot_eq heap.region walked (heap.scannable _ induction) slot,
        rec.pointsInto_iff heap.markable] at into
      exact .field induction slot member into
  · intro reached
    induction reached with
    | root slot member into =>
      refine .marked member ?_
      rw [rec.headers _ member, colorHd_withStatusHd (rec.colour_lt heap.markable member),
        visitedColour, if_pos ⟨_, slot, into⟩]
    | @field a c p source slot member into induction =>
      refine .field (p := p) induction ?_ member ?_
      · rwa [rec.fieldSlots_eq heap.region heap.markable source.mem (heap.closures _ source)]
      · rwa [rec.slot_eq heap.region source.mem (heap.scannable _ source) slot,
          rec.pointsInto_iff heap.markable]

theorem localHeap (heap : LocalStack arenas mem0 young garbage localSp blocks slots)
    (rec : FrameColoured arenas mem0 young garbage blocks slots mem1) :
    LocalHeap arenas mem1 young garbage localSp blocks where
  region := ⟨heap.region.nonempty, heap.region.apart, heap.region.aligned,
    heap.region.layout.recolour rec heap.markable heap.region.layout.headers fun _ member => member⟩
  markable := heap.markable
  coloured b member := by
    rw [rec.headers b member, colorHd_withStatusHd (rec.colour_lt heap.markable member)]
    exact rec.colours b member
  closures a reached := by
    obtain ⟨tag, size⟩ := rec.shape heap.markable (a.header arenas / 8)
    rw [tag, size]
    exact heap.closures a ((heap.reached_iff rec a).mp reached)
  scannable a reached := by
    have stack := (heap.reached_iff rec a).mp reached
    have small := rec.colour_lt heap.markable stack.mem
    rw [rec.headers a stack.mem, scannableWosizeHd_withStatusHd _ small,
      wosizeHd_withStatusHd _ small]
    exact heap.scannable a stack
  pointers a reached p slot := by
    have stack := (heap.reached_iff rec a).mp reached
    rw [rec.fieldSlots_eq heap.region heap.markable stack.mem (heap.closures a stack)] at slot
    rw [rec.slot_eq heap.region stack.mem (heap.scannable a stack) slot,
      rec.localPointer_iff heap.coloured heap.markable]
    exact heap.pointers a stack p slot

theorem forward_after (heap : LocalStack arenas mem0 young garbage localSp blocks slots)
    (rec : FrameColoured arenas mem0 young garbage blocks slots mem1) :
    ∀ a, Reached arenas mem1 young garbage blocks a → ∀ p ∈ a.fieldSlots arenas mem1,
      ∀ c ∈ blocks, PointsInto arenas mem1 young (mem1 (p / 8)) c → a.sp + a.size arenas mem1 ≤ c.sp := by
  intro a reached p slot c member into
  have stack := (heap.reached_iff rec a).mp reached
  rw [rec.fieldSlots_eq heap.region heap.markable stack.mem (heap.closures a stack)] at slot
  rw [rec.slot_eq heap.region stack.mem (heap.scannable a stack) slot,
    rec.pointsInto_iff heap.markable] at into
  rw [rec.size_eq heap.markable]
  exact heap.forward a stack p slot c member into

end LocalStack

end Reach

/-! ## The scan of a stack and of a chain -/

section Scan

variable {ctx : ScanContext} {mem0 : Nat → Nat} {gcRegs : Nat}

namespace NativeStack

variable {stack : Nat} {info : StackInfo} {pre : List Nat}
  {chunks : List (Nat × List (Nat × FrameDescr))} {arenas : List LocalArena}
  {blocks : List LocalBlock}

theorem coloured (shape : NativeStack ctx mem0 gcRegs stack info pre chunks arenas blocks) :
    LocallyColoured arenas blocks ctx.garbage mem0 := by
  cases shape.locals with
  | none => exact fun _ member => absurd member (List.not_mem_nil _)
  | some _ heap => exact heap.coloured

theorem visit_recoloured (shape : NativeStack ctx mem0 gcRegs stack info pre chunks arenas blocks)
    {p : Nat} (slot : p ∈ pre ++ chunkRoots chunks) (st : ScanState)
    (holds : ∃ colour, Recoloured arenas blocks ctx.garbage mem0 st.mem colour) :
    ∃ colour, Recoloured arenas blocks ctx.garbage mem0
      (visit ctx.young ctx.garbage (info.localArenas.map ctx.arenasAt) p st).2.mem colour := by
  obtain ⟨colour, rec⟩ := holds
  cases shape.locals with
  | none absent =>
    refine ⟨colour, ?_⟩
    rw [absent, Option.map_none', visit_none]
    split <;> exact rec
  | @some loc _ present heap =>
    rw [present, Option.map_some']
    exact ⟨_, (visitSlots_spec heap.region heap.markable heap.coloured [p] st colour rec
      (fun q same => heap.apart q (List.mem_singleton.mp same ▸ slot))
      (fun q same => heap.roots q (List.mem_singleton.mp same ▸ slot))).1⟩

theorem frames_visited (shape : NativeStack ctx mem0 gcRegs stack info pre chunks arenas blocks)
    {steps : Nat} (framesFuel : chunkSteps chunks ≤ steps) (roots : List Nat) :
    scanStackFrames ctx (info.localArenas.map ctx.arenasAt) steps info gcRegs
        (visitSlots ctx.young ctx.garbage (info.localArenas.map ctx.arenasAt) pre ⟨mem0, roots⟩) =
      some (visitSlots ctx.young ctx.garbage (info.localArenas.map ctx.arenasAt)
        (pre ++ chunkRoots chunks) ⟨mem0, roots⟩) := by
  obtain ⟨spare, rfl⟩ := Nat.exists_eq_add_of_le framesFuel
  rw [visitSlots_append]
  exact shape.frames.walkVisiting
    (I := fun st => ∃ colour, Recoloured arenas blocks ctx.garbage mem0 st.mem colour) spare
    (fun st ⟨_, rec⟩ w listed => rec.others w fun b member => shape.reads w listed b member)
    (fun p listed => shape.visit_recoloured (List.mem_append_right _ listed)) _
    (visitSlots_invariant (fun p listed => shape.visit_recoloured (List.mem_append_left _ listed)) _
      ⟨_, Recoloured.initial shape.coloured⟩)

end NativeStack

theorem scanStack_eq {stack : Nat} {info : StackInfo} {pre : List Nat}
    {chunks : List (Nat × List (Nat × FrameDescr))} {arenas : List LocalArena}
    {blocks : List LocalBlock} (shape : NativeStack ctx mem0 gcRegs stack info pre chunks arenas blocks)
    {steps : Nat} (framesFuel : chunkSteps chunks ≤ steps)
    (localFuel : blocks.length + arenas.length ≤ steps) (roots : List Nat) :
    ∃ reached : List LocalBlock, reached.Sublist blocks ∧
      (∀ c, c ∈ reached ↔ StackReached arenas mem0 ctx.young blocks (pre ++ chunkRoots chunks) c) ∧
      scanStack ctx steps stack info gcRegs
          (visitSlots ctx.young ctx.garbage (info.localArenas.map ctx.arenasAt) pre ⟨mem0, roots⟩) =
        some (.ok ⟨mem0, roots ++ stackRootSlots ctx mem0 info (pre ++ chunkRoots chunks) arenas reached⟩) := by
  have walked := shape.frames_visited framesFuel roots
  cases shape.locals with
  | none absent =>
    refine ⟨[], .slnil, fun c => ⟨fun listed => absurd listed (List.not_mem_nil c),
      fun reached => absurd reached.mem (List.not_mem_nil c)⟩, ?_⟩
    simp only [scanStack, walked]
    simp [absent, visitSlots_none, scanLocalAllocations, stackRootSlots, handlerSlots, Except.map]
  | @some loc _ present heap =>
    obtain ⟨rec, reported⟩ := visitSlots_spec heap.region heap.markable heap.coloured
      (pre ++ chunkRoots chunks) ⟨mem0, roots⟩ _ (Recoloured.initial heap.coloured) heap.apart heap.roots
    obtain ⟨st, scanned, colour, reached, holds⟩ :=
      (heap.localHeap rec).scan_reporting (heap.forward_after rec) localFuel
    have iff : ∀ c, c ∈ reached ↔ StackReached (ctx.arenasAt loc) mem0 ctx.young blocks
        (pre ++ chunkRoots chunks) c := fun c => (holds.mem_iff c).trans (heap.reached_iff rec c)
    have localRoots :
        reached.flatMap (LocalBlock.rootSlots (ctx.arenasAt loc) (visitSlots ctx.young ctx.garbage
            (some (ctx.arenasAt loc)) (pre ++ chunkRoots chunks) ⟨mem0, roots⟩).mem ctx.young
            ctx.garbage) =
          reached.flatMap (LocalBlock.rootSlots (ctx.arenasAt loc) mem0 ctx.young ctx.garbage) := by
      simp only [List.flatMap]
      congr 1
      refine List.map_congr_left fun c listed => ?_
      have stack := (iff c).mp listed
      exact rec.rootSlots_eq heap.region heap.coloured heap.markable stack.mem
        (heap.closures c stack) (heap.scannable c stack)
    refine ⟨reached, holds.sublist, iff, ?_⟩
    simp only [scanStack, walked]
    simp only [present, Option.map_some', ScanState.report_mem, scanned, Except.map, ScanState.report_roots, reported, Option.some.injEq, Except.ok.injEq,
      ScanState.mk.injEq]
    refine ⟨rec.restore holds.recoloured heap.markable heap.unmarked holds.reset, ?_⟩
    rw [holds.roots, localRoots]
    simp [stackRootSlots, handlerSlots]

/-- What the scan shows the collector of one stack, after the visits of `pre`: the slots of
`stackRootSlots`, for the slots of `pre` and of the stack's chunks, and the local blocks reachable
from them. -/
def ShowsStack (ctx : ScanContext) (mem0 : Nat → Nat) (gcRegs : Nat) (pre : List Nat)
    (link : Nat × StackInfo) (roots : List Nat) : Prop :=
  ∃ chunks arenas blocks reached, NativeStack ctx mem0 gcRegs link.1 link.2 pre chunks arenas blocks ∧
    reached.Sublist blocks ∧
    (∀ c, c ∈ reached ↔ StackReached arenas mem0 ctx.young blocks (pre ++ chunkRoots chunks) c) ∧
    roots = stackRootSlots ctx mem0 link.2 (pre ++ chunkRoots chunks) arenas reached

theorem camlScanStack_chain {steps : Nat} {records : Stacks} {first : Option Nat}
    {chain : List (Nat × StackInfo)} (linked : ParentChain records first chain)
    (described : ∀ link ∈ chain, ∃ chunks arenas blocks,
      NativeStack ctx mem0 gcRegs link.1 link.2 [] chunks arenas blocks ∧ chunkSteps chunks ≤ steps ∧
        blocks.length + arenas.length ≤ steps)
    {fuel : Nat} (enough : chain.length < fuel) (roots : List Nat) :
    ∃ rootLists : List (List Nat), List.Forall₂ (ShowsStack ctx mem0 gcRegs []) chain rootLists ∧
      camlScanStack ctx steps records gcRegs fuel first ⟨mem0, roots⟩ =
        some (.ok ⟨mem0, roots ++ rootLists.flatten⟩) := by
  induction linked generalizing fuel roots with
  | null =>
    obtain ⟨fuel, rfl⟩ : ∃ spare, fuel = spare + 1 := ⟨fuel - 1, by simp at enough; omega⟩
    exact ⟨[], .nil, by simp [camlScanStack]⟩
  | @link stack info rest found _ induction =>
    obtain ⟨fuel, rfl⟩ : ∃ spare, fuel = spare + 1 := ⟨fuel - 1, by omega⟩
    obtain ⟨chunks, arenas, blocks, shape, framesFuel, localFuel⟩ := described _ (.head _)
    obtain ⟨reached, sub, iff, scanned⟩ := scanStack_eq shape framesFuel localFuel roots
    have scanned : scanStack ctx steps stack info gcRegs ⟨mem0, roots⟩ = _ := scanned
    obtain ⟨rootLists, shown, scannedRest⟩ := induction
      (fun link listed => described link (.tail _ listed)) (show rest.length < fuel by simp at enough; omega)
      (roots ++ stackRootSlots ctx mem0 info ([] ++ chunkRoots chunks) arenas reached)
    refine ⟨_ :: rootLists, .cons ⟨chunks, arenas, blocks, reached, shape, sub, iff, rfl⟩ shown, ?_⟩
    rw [camlScanStack, found]
    simp only [scanned, scannedRest, List.flatten_cons, List.append_assoc]

/-- On a current stack whose chain reaches `NULL`, each stack as the native scan finds it with enough
steps for its inner loops, the current one after the visits of the non-zero local roots and with
the local-root tables outside its walked headers, and with an iteration of `caml_scan_stack` for
each stack and one for `NULL`, the native `caml_do_local_roots` returns with memory as it found it,
having passed to `f` the local-root slots holding roots, then, stack after stack, the frame slots
holding roots, the handler slots and the root fields of the local blocks reachable from the frames
and, for the current stack, from the local roots. -/
theorem camlDoLocalRoots_eq {steps : Nat} {records : Stacks} {localRoots : List RootsBlock}
    {stack : Nat} {info : StackInfo} {rest : List (Nat × StackInfo)}
    (linked : ParentChain records (some stack) ((stack, info) :: rest))
    (current : ∃ chunks arenas blocks,
      NativeStack ctx mem0 gcRegs stack info (localRootSlots mem0 localRoots) chunks arenas blocks ∧
        (∀ w ∈ tableWords localRoots, ∀ b ∈ blocks, b.header arenas / 8 ≠ w) ∧
        chunkSteps chunks ≤ steps ∧ blocks.length + arenas.length ≤ steps)
    (described : ∀ link ∈ rest, ∃ chunks arenas blocks,
      NativeStack ctx mem0 gcRegs link.1 link.2 [] chunks arenas blocks ∧ chunkSteps chunks ≤ steps ∧
        blocks.length + arenas.length ≤ steps)
    {fuel : Nat} (enough : rest.length + 1 < fuel) :
    ∃ rootList rootLists,
      ShowsStack ctx mem0 gcRegs (localRootSlots mem0 localRoots) (stack, info) rootList ∧
      List.Forall₂ (ShowsStack ctx mem0 gcRegs []) rest rootLists ∧
      camlDoLocalRoots ctx steps fuel records gcRegs localRoots stack ⟨mem0, []⟩ =
        some (.ok ⟨mem0, rootList ++ rootLists.flatten⟩) := by
  cases linked with
  | link found up =>
  obtain ⟨chunks, arenas, blocks, shape, tables, framesFuel, localFuel⟩ := current
  obtain ⟨reached, sub, iff, scanned⟩ := scanStack_eq shape framesFuel localFuel []
  obtain ⟨fuel, rfl⟩ : ∃ spare, fuel = spare + 1 := ⟨fuel - 1, by omega⟩
  obtain ⟨rootLists, shown, scannedRest⟩ := camlScanStack_chain up described
    (show rest.length < fuel by omega)
    (stackRootSlots ctx mem0 info (localRootSlots mem0 localRoots ++ chunkRoots chunks) arenas reached)
  have visited : visitLocalRoots ctx.young ctx.garbage (info.localArenas.map ctx.arenasAt) localRoots
      ⟨mem0, []⟩ = visitSlots ctx.young ctx.garbage (info.localArenas.map ctx.arenasAt)
        (localRootSlots mem0 localRoots) ⟨mem0, []⟩ :=
    visitLocalRoots_eq (I := fun st => ∃ colour, Recoloured arenas blocks ctx.garbage mem0 st.mem colour)
      localRoots _ (fun st ⟨_, rec⟩ w listed => rec.others w fun b member => tables w listed b member)
      (fun w listed nonzero => shape.visit_recoloured (List.mem_append_left _
        (List.mem_map.mpr ⟨w, List.mem_filter.mpr ⟨listed, by simpa using nonzero⟩, rfl⟩)))
      ⟨_, Recoloured.initial shape.coloured⟩
  refine ⟨_, rootLists, ⟨chunks, arenas, blocks, reached, shape, sub, iff, rfl⟩, shown, ?_⟩
  simp only [camlDoLocalRoots, found, visited, camlScanStack, scanned, List.nil_append, scannedRest]

/-- The sample context: the sample platform and frame table, the sample arenas at every address,
and `colors.GARBAGE` the colour `0`. -/
def sampleContext : ScanContext :=
  ⟨samplePlatform .plain true 64, sampleFrames, fun _ => sampleArenas, youngSample, 0⟩

/-- The framed stack, whose first chunk's register area holds a pointer into the first of two
unmarked local blocks, the first pointing at the second, which holds a young value, and whose second
chunk's register area holds a young value; and a local-root table of three words at word `100`,
a pointer into the second local block, zero, and a young value. -/
def scannedLocals (word : Nat) : Nat :=
  if word = 751 then 1064 else if word = 877 then 5000
  else if word = 100 then 1080 else if word = 102 then 5000
  else if word = 132 ∨ word = 134 then makeHeader 1 0 notMarkable
  else if word = 133 then 1080 else if word = 135 then 5000 else framedStack word

/-- The framed stack's record, with the sample arenas and `local_sp` at `-32`. -/
def scannedRecord : StackInfo := ⟨500, none, 516, 0, 0, 0, none, -1, 0, 0, some 64, -32, none, 0⟩

/-- The stack records of the sample: the framed stack at `4000`. -/
def scannedRecords (stack : Nat) : Option StackInfo :=
  if stack = 4000 then some scannedRecord else none

theorem scannedChunks : StackChunks sampleContext.frames scannedLocals
    (8 * sampleContext.env.stackHigh scannedRecord) (8 * scannedRecord.sp) 6000 framedChunks :=
  .chunk (by decide) (.ocaml rfl rfl (.toC rfl rfl)) (.chunk (by decide) (.ocaml rfl rfl (.toC rfl rfl)) .top)

/-- The sample's local roots: one block of one table of three words at word `100`. -/
def sampleRoots : List RootsBlock := [⟨3, [100]⟩]

theorem scannedLocals_stack :
    LocalStack sampleArenas scannedLocals youngSample 0 (-32) chainedBlocks
      (localRootSlots scannedLocals sampleRoots ++ chunkRoots framedChunks) where
  region := ⟨by decide, ⟨by decide, List.pairwise_singleton _ _⟩, by decide,
    .block (by decide) (by decide) (by decide) (.block (by decide) (by decide) (by decide) .done)⟩
  markable := by decide
  unmarked := by decide
  apart := by decide
  roots := by decide
  closures a reached := (by decide : ∀ a ∈ chainedBlocks,
    tagHd (scannedLocals (a.header sampleArenas / 8)) = closureTag →
      2 ≤ wosizeHd (scannedLocals (a.header sampleArenas / 8))) a reached.mem
  scannable a reached := (by decide : ∀ a ∈ chainedBlocks,
    scannableWosizeHd (scannedLocals (a.header sampleArenas / 8)) ≤
      wosizeHd (scannedLocals (a.header sampleArenas / 8))) a reached.mem
  pointers a reached := (by decide : ∀ a ∈ chainedBlocks,
    ∀ p ∈ a.fieldSlots sampleArenas scannedLocals,
      LocalPointer sampleArenas scannedLocals youngSample 0 chainedBlocks (scannedLocals (p / 8)))
    a reached.mem
  forward a reached := (by decide : ∀ a ∈ chainedBlocks,
    ∀ p ∈ a.fieldSlots sampleArenas scannedLocals, ∀ c ∈ chainedBlocks,
      PointsInto sampleArenas scannedLocals youngSample (scannedLocals (p / 8)) c →
        a.sp + a.size sampleArenas scannedLocals ≤ c.sp) a reached.mem

/-- The sample chain of one stack satisfies the scan's hypotheses, and the scan returns with memory
as it found it. -/
example :
    ParentChain scannedRecords (some 4000) [(4000, scannedRecord)] ∧
      (∀ link ∈ [(4000, scannedRecord)], ∃ chunks arenas blocks,
        NativeStack sampleContext scannedLocals 6000 link.1 link.2 [] chunks arenas blocks ∧
          chunkSteps chunks ≤ 7 ∧ blocks.length + arenas.length ≤ 7) ∧
      [(4000, scannedRecord)].length < 2 ∧
      ∃ rootLists : List (List Nat),
        List.Forall₂ (ShowsStack sampleContext scannedLocals 6000 []) [(4000, scannedRecord)] rootLists ∧
        camlScanStack sampleContext 7 scannedRecords 6000 2 (some 4000) ⟨scannedLocals, []⟩ =
          some (.ok ⟨scannedLocals, [] ++ rootLists.flatten⟩) :=
  have linked : ParentChain scannedRecords (some 4000) [(4000, scannedRecord)] := .link rfl .null
  have described : ∀ link ∈ [(4000, scannedRecord)], ∃ chunks arenas blocks,
      NativeStack sampleContext scannedLocals 6000 link.1 link.2 [] chunks arenas blocks ∧
        chunkSteps chunks ≤ 7 ∧ blocks.length + arenas.length ≤ 7 := fun link listed => by
    rw [List.mem_singleton.mp listed]
    exact ⟨framedChunks, sampleArenas, chainedBlocks, ⟨scannedChunks,
        .some rfl (scannedLocals_stack.mono fun _ listed => List.mem_append_right _ listed), by decide⟩,
      by decide, by decide⟩
  ⟨linked, described, by decide, camlScanStack_chain linked described (by decide) []⟩

/-- The collector is shown the young register of the second chunk, the three handlers, and the
field of the second local block, reached through the first from the first chunk's register. -/
example : (camlScanStack sampleContext 7 scannedRecords 6000 2 (some 4000)
    ⟨scannedLocals, []⟩).map (Except.map ScanState.roots) = some (.ok [7016, 4128, 4136, 4144, 1080]) :=
  rfl

/-- The sample current stack with its local roots satisfies the hypotheses of
`caml_do_local_roots`'s scan, which returns with memory as it found it. -/
theorem sample_local_roots_scanned :
    ParentChain scannedRecords (some 4000) [(4000, scannedRecord)] ∧
      (∃ chunks arenas blocks, NativeStack sampleContext scannedLocals 6000 4000 scannedRecord
          (localRootSlots scannedLocals sampleRoots) chunks arenas blocks ∧
        (∀ w ∈ tableWords sampleRoots, ∀ b ∈ blocks, b.header arenas / 8 ≠ w) ∧
        chunkSteps chunks ≤ 7 ∧ blocks.length + arenas.length ≤ 7) ∧
      (∀ link ∈ ([] : List (Nat × StackInfo)), ∃ chunks arenas blocks,
        NativeStack sampleContext scannedLocals 6000 link.1 link.2 [] chunks arenas blocks ∧
          chunkSteps chunks ≤ 7 ∧ blocks.length + arenas.length ≤ 7) ∧
      ([] : List (Nat × StackInfo)).length + 1 < 2 ∧
      ∃ rootList rootLists,
        ShowsStack sampleContext scannedLocals 6000 (localRootSlots scannedLocals sampleRoots)
          (4000, scannedRecord) rootList ∧
        List.Forall₂ (ShowsStack sampleContext scannedLocals 6000 []) [] rootLists ∧
        camlDoLocalRoots sampleContext 7 2 scannedRecords 6000 sampleRoots 4000 ⟨scannedLocals, []⟩ =
          some (.ok ⟨scannedLocals, rootList ++ rootLists.flatten⟩) :=
  have linked : ParentChain scannedRecords (some 4000) [(4000, scannedRecord)] := .link rfl .null
  have current : ∃ chunks arenas blocks, NativeStack sampleContext scannedLocals 6000 4000
      scannedRecord (localRootSlots scannedLocals sampleRoots) chunks arenas blocks ∧
      (∀ w ∈ tableWords sampleRoots, ∀ b ∈ blocks, b.header arenas / 8 ≠ w) ∧
      chunkSteps chunks ≤ 7 ∧ blocks.length + arenas.length ≤ 7 :=
    ⟨framedChunks, sampleArenas, chainedBlocks,
      ⟨scannedChunks, .some rfl scannedLocals_stack, by decide⟩, by decide, by decide, by decide⟩
  have described : ∀ link ∈ ([] : List (Nat × StackInfo)), ∃ chunks arenas blocks,
      NativeStack sampleContext scannedLocals 6000 link.1 link.2 [] chunks arenas blocks ∧
        chunkSteps chunks ≤ 7 ∧ blocks.length + arenas.length ≤ 7 :=
    fun _ listed => absurd listed (List.not_mem_nil _)
  ⟨linked, current, described, by decide, camlDoLocalRoots_eq linked current described (by decide)⟩

/-- The collector is shown first the young value of the local-root table, then what the scan of the
stack shows; the local root pointing into the second local block marks it before the frames do. -/
example : (camlDoLocalRoots sampleContext 7 2 scannedRecords 6000 sampleRoots 4000
    ⟨scannedLocals, []⟩).map (Except.map ScanState.roots) =
      some (.ok [816, 7016, 4128, 4136, 4144, 1080]) :=
  rfl

end Scan

end Native

end FiberRuntime
