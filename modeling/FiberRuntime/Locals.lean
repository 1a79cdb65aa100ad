import FiberRuntime.Stack

/-!
# Scanning the local arenas of a stack

`visit` and `scan_local_allocations`: the walk a collection makes over a stack's local-allocation
region, from `local_sp` up to offset `0`, which scans the fields of every block marked with the
transient colour `colors.GARBAGE`, resets the mark, reports the young and major-heap values the
fields hold and marks the local blocks they point to.

As in the C, the bounds of an arena, the offsets of the walk and the values in memory are byte
addresses; memory is read and written a word at a time, at `address / 8`.  The headers follow the
runtime's layout: the tag in bits `0` to `7`, the colour in bits `8` and `9`, the size in the `46`
bits above, and `8` reserved bits on top, which record the scannable prefix of a mixed block.  The
model follows a release build: the `DEBUG` poisoning of free local memory and the `CAMLassert`s
are left out, and what an assertion would have stopped is followed as the code runs on.
-/

namespace FiberRuntime

/-! ## Headers and values -/

/-- `Tag_hd`. -/
def tagHd (hd : Nat) : Nat := hd % 256

/-- `Color_hd`, as the index of the colour in bits `8` and `9`. -/
def colorHd (hd : Nat) : Nat := hd / 256 % 4

/-- `Wosize_hd`: the `46` bits above the colour. -/
def wosizeHd (hd : Nat) : Nat := hd / 1024 % 2 ^ 46

/-- `Reserved_hd`: the top `8` bits. -/
def reservedHd (hd : Nat) : Nat := hd / 2 ^ 56

/-- `Bhsize_hd`: the bytes of a block with its header. -/
def bhsizeHd (hd : Nat) : Nat := 8 * (wosizeHd hd + 1)

/-- `Scannable_wosize_hd`: the scannable prefix of a mixed block, whose reserved bits hold its
length plus one, and the whole block otherwise. -/
def scannableWosizeHd (hd : Nat) : Nat :=
  if reservedHd hd = 0 then wosizeHd hd else reservedHd hd - 1

/-- `With_status_hd`: the header with its colour replaced by `status`. -/
def withStatusHd (hd status : Nat) : Nat := hd - colorHd hd * 256 + status * 256

/-- `Make_header`. -/
def makeHeader (wosize tag color : Nat) : Nat := wosize * 1024 + color * 256 + tag

/-- `NOT_MARKABLE`: the colour of local blocks and of blocks outside the heap. -/
def notMarkable : Nat := 3

/-- `Local_uninit_hd`: the header filling the offsets an arena takes over from the arenas before
it. -/
def localUninitHd : Nat := makeHeader 0 0x42 notMarkable

/-- `Closure_tag`. -/
def closureTag : Nat := 247

/-- `Infix_tag`. -/
def infixTag : Nat := 249

/-- `No_scan_tag`. -/
def noScanTag : Nat := 251

/-- `Start_env_closinfo`: bits `1` to `55` of a closure's info word. -/
def startEnvClosinfo (info : Nat) : Nat := info * 256 % 2 ^ 64 / 512

/-- `Hp_val`, as a word address: the header is the word before the first field. -/
def hpVal (v : Nat) : Nat := v / 8 - 1

/-- The block `visit` takes a value to: through an infix header, the closure around it
(`vblock -= Infix_offset_val(v)`). -/
def blockOf (mem : Nat → Nat) (v : Nat) : Nat :=
  if tagHd (mem (hpVal v)) = infixTag then v - 8 * wosizeHd (mem (hpVal v)) else v

theorem blockOf_le (mem : Nat → Nat) (v : Nat) : blockOf mem v ≤ v := by
  unfold blockOf
  split <;> omega

@[simp]
theorem colorHd_withStatusHd {hd status : Nat} (small : status < 4) :
    colorHd (withStatusHd hd status) = status := by
  simp only [colorHd, withStatusHd]
  omega

@[simp]
theorem tagHd_withStatusHd (hd status : Nat) : tagHd (withStatusHd hd status) = tagHd hd := by
  simp only [tagHd, withStatusHd, colorHd]
  omega

@[simp]
theorem wosizeHd_withStatusHd (hd : Nat) {status : Nat} (small : status < 4) :
    wosizeHd (withStatusHd hd status) = wosizeHd hd := by
  simp only [wosizeHd, withStatusHd, colorHd]
  omega

@[simp]
theorem reservedHd_withStatusHd (hd : Nat) {status : Nat} (small : status < 4) :
    reservedHd (withStatusHd hd status) = reservedHd hd := by
  simp only [reservedHd, withStatusHd, colorHd]
  omega

theorem withStatusHd_withStatusHd (hd : Nat) {status status' : Nat} (small : status < 4) :
    withStatusHd (withStatusHd hd status) status' = withStatusHd hd status' := by
  simp only [withStatusHd, colorHd]
  omega

theorem withStatusHd_colorHd (hd : Nat) : withStatusHd hd (colorHd hd) = hd := by
  simp only [withStatusHd, colorHd]
  omega

@[simp]
theorem scannableWosizeHd_withStatusHd (hd : Nat) {status : Nat} (small : status < 4) :
    scannableWosizeHd (withStatusHd hd status) = scannableWosizeHd hd := by
  simp only [scannableWosizeHd, reservedHd_withStatusHd hd small, wosizeHd_withStatusHd hd small]

@[simp]
theorem bhsizeHd_withStatusHd (hd : Nat) {status : Nat} (small : status < 4) :
    bhsizeHd (withStatusHd hd status) = bhsizeHd hd := by
  simp only [bhsizeHd, wosizeHd_withStatusHd hd small]

/-! ## The walk -/

/-- `struct caml_local_arena`. -/
structure LocalArena where
  /-- `base`: the arena's first byte. -/
  base : Nat
  /-- `length`, in bytes. -/
  length : Nat
  deriving DecidableEq, Repr

/-- `get_local_ix`: the first arena holding the byte `v`. -/
def getLocalIx (arenas : List LocalArena) (v : Nat) : Option Nat :=
  arenas.findIdx? fun arena => arena.base ≤ v ∧ v < arena.base + arena.length

/-- What the scan changes: memory, where it recolours headers, and the slots it has passed to the
scanning action `f`, oldest first. -/
structure ScanState where
  /-- The words of memory, by word address. -/
  mem : Nat → Nat
  /-- The slots `f(fdata, *p, p)` was called on, as byte addresses. -/
  roots : List Nat

namespace ScanState

/-- `f(fdata, *p, p)`. -/
def report (st : ScanState) (p : Nat) : ScanState := { st with roots := st.roots ++ [p] }

/-- A header written back. -/
def write (st : ScanState) (word value : Nat) : ScanState :=
  { st with mem := Function.update st.mem word value }

@[simp] theorem report_mem (st : ScanState) (p : Nat) : (st.report p).mem = st.mem := rfl
@[simp] theorem report_roots (st : ScanState) (p : Nat) : (st.report p).roots = st.roots ++ [p] :=
  rfl
@[simp] theorem write_mem (st : ScanState) (word value : Nat) :
    (st.write word value).mem = Function.update st.mem word value := rfl
@[simp] theorem write_roots (st : ScanState) (word value : Nat) :
    (st.write word value).roots = st.roots := rfl

end ScanState

/-- `visit(f, fdata, locals, colors, p)` on the slot at byte `p`, where `young` is `Is_young` and
`garbage` is `colors.GARBAGE`: the arena of the unmarked local block it marked, if any. -/
def visit (young : Nat → Bool) (garbage : Nat) (locals : Option (List LocalArena)) (p : Nat)
    (st : ScanState) : Option Nat × ScanState :=
  let v := st.mem (p / 8)
  if v % 2 ≠ 0 then (none, st)
  else if young v then (none, st.report p)
  else
    let vblock := blockOf st.mem v
    let hd := st.mem (hpVal vblock)
    if colorHd hd = garbage then (none, st)
    else if colorHd hd = notMarkable then
      match locals with
      | none => (none, st)
      | some arenas =>
          match getLocalIx arenas vblock with
          | none => (none, st)
          | some ix => (some ix, st.write (hpVal vblock) (withStatusHd hd garbage))
    else (none, st.report p)

/-- `arena.base + arena.length` for `arena = loc->arenas[ix]`: the end the offsets count from. -/
def arenaEnd (arenas : List LocalArena) (ix : Nat) : Nat :=
  (arenas.getD ix ⟨0, 0⟩).base + (arenas.getD ix ⟨0, 0⟩).length

/-- The byte address of the header at offset `sp` from the end of arena `ix`. -/
def localHeader (arenas : List LocalArena) (ix : Nat) (sp : Int) : Nat := (arenaEnd arenas ix + sp).toNat

/-- The `for` loop of `scan_local_allocations` over `count` fields of the block whose header is at
byte `hp` and offset `sp`, from field `i`: a field whose visit marked a local block must point at or
above `sp`, or the scan stops with a fatal error. -/
def scanFields (young : Nat → Bool) (garbage : Nat) (arenas : List LocalArena) (sp : Int)
    (hp : Nat) : Nat → Nat → ScanState → Except String ScanState
  | _, 0, st => .ok st
  | i, count + 1, st =>
      match visit young garbage (some arenas) (hp + 8 + 8 * i) st with
      | (none, st) => scanFields young garbage arenas sp hp (i + 1) count st
      | (some ix, st) =>
          if sp ≤ (st.mem ((hp + 8 + 8 * i) / 8) : Int) - arenaEnd arenas ix then
            scanFields young garbage arenas sp hp (i + 1) count st
          else .error "backwards local pointer"

/-- The body of the loop of `scan_local_allocations` on the block whose header is at offset `sp`
of arena `ix`: an unmarked block is skipped; a marked one has its mark reset and, unless its tag is
at least `No_scan_tag`, its scannable fields visited, from `Start_env` for a closure. -/
def scanBlock (young : Nat → Bool) (garbage : Nat) (arenas : List LocalArena) (ix : Nat)
    (sp : Int) (st : ScanState) : Except String ScanState :=
  let hp := localHeader arenas ix sp
  let hd := st.mem (hp / 8)
  if colorHd hd = notMarkable then .ok st
  else
    let hd := withStatusHd hd notMarkable
    let st := st.write (hp / 8) hd
    if noScanTag ≤ tagHd hd then .ok st
    else
      let start := if tagHd hd = closureTag then startEnvClosinfo (st.mem (hp / 8 + 2)) else 0
      scanFields young garbage arenas sp hp start (scannableWosizeHd hd - start) st

/-- Why `scan_local_allocations` stops without returning. -/
inductive LocalScanFailure where
  /-- `caml_fatal_error(message)`. -/
  | fatal (message : String)
  /-- `loc->arenas[-1]` is read: a `Local_uninit_hd` in arena `0`, or no arena at all. -/
  | arenaUnderflow
  deriving DecidableEq, Repr

/-- The `while (sp < 0)` loop of `scan_local_allocations` in arena `ix`, for at most `fuel`
iterations (`none` when they do not suffice).  `Bhsize_hd` is the same before and after the mark is
reset. -/
def scanLocalLoop (young : Nat → Bool) (garbage : Nat) (arenas : List LocalArena) :
    Nat → Int → Nat → ScanState → Option (Except LocalScanFailure ScanState)
  | 0, _, _, _ => none
  | fuel + 1, sp, ix, st =>
      if sp < 0 then
        let hd := st.mem (localHeader arenas ix sp / 8)
        if hd = localUninitHd then
          match ix with
          | 0 => some (.error .arenaUnderflow)
          | ix + 1 => scanLocalLoop young garbage arenas fuel sp ix st
        else
          match scanBlock young garbage arenas ix sp st with
          | .error message => some (.error (.fatal message))
          | .ok st => scanLocalLoop young garbage arenas fuel (sp + bhsizeHd hd) ix st
      else some (.ok st)

/-- `scan_local_allocations(f, fdata, loc, local_sp)` on memory `mem`, with at most `fuel`
iterations of its loop: the memory after it and the slots it passed to `f`. -/
def scanLocalAllocations (young : Nat → Bool) (garbage fuel : Nat)
    (loc : Option (List LocalArena)) (localSp : Int) (mem : Nat → Nat) :
    Option (Except LocalScanFailure ScanState) :=
  match loc with
  | none => some (.ok ⟨mem, []⟩)
  | some arenas =>
      match arenas.length with
      | 0 => some (.error .arenaUnderflow)
      | count + 1 => scanLocalLoop young garbage arenas fuel localSp count ⟨mem, []⟩

end FiberRuntime
