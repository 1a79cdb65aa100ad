import FiberRuntime.Chain

/-!
# The roots of bytecode stacks

What the collector is shown of a chain of bytecode stacks.  `caml_do_local_roots` passes the
non-zero slots of the C local-root tables to the scanning action `f`, then `caml_scan_stack` passes,
stack after stack along the parent chain, every word between `sp` and `Stack_high` and the three
handlers.  A stack slot or handler goes to `f` when `is_scannable` holds of its value: always in the
young-only mode, and otherwise only for a block that is no code pointer, since code pointers sit on
the bytecode stack as naked pointers.
-/

namespace FiberRuntime

/-- A call `f(fdata, v, p)` of the scanning action: the value and the address of its slot. -/
structure Root where
  /-- `v`. -/
  value : Nat
  /-- `p`, a word address. -/
  slot : Nat
  deriving DecidableEq, Repr

/-- `is_scannable(flags, v)`, where `onlyYoung` is `flags & SCANNING_ONLY_YOUNG_VALUES` and
`isCode v` is `caml_find_code_fragment_by_pc((char *) v) != NULL`. -/
def isScannable (onlyYoung : Bool) (isCode : Nat → Bool) (v : Nat) : Bool :=
  onlyYoung || (v % 2 == 0 && !isCode v)

/-- `if (is_scannable(fflags, v)) f(fdata, v, p)` on the calls made so far. -/
def scanSlot (onlyYoung : Bool) (isCode : Nat → Bool) (value slot : Nat) (calls : List Root) :
    List Root :=
  if isScannable onlyYoung isCode value then calls ++ [⟨value, slot⟩] else calls

/-- The loop `for (sp = low; sp < high; sp++)` of `caml_scan_stack` over the `count` words from
`sp`. -/
def scanStackWords (onlyYoung : Bool) (isCode : Nat → Bool) (mem : Nat → Nat) :
    Nat → Nat → List Root → List Root
  | 0, _, calls => calls
  | count + 1, sp, calls =>
      scanStackWords onlyYoung isCode mem count (sp + 1) (scanSlot onlyYoung isCode (mem sp) sp calls)

/-- One iteration of the `while (stack != NULL)` loop of `caml_scan_stack`: the words from `sp` to
`Stack_high`, then `handle_value`, `handle_exn` and `handle_effect`, the first three words of the
handler record. -/
def scanOneStack (env : Env) (onlyYoung : Bool) (isCode : Nat → Bool) (mem : Nat → Nat)
    (info : StackInfo) (calls : List Root) : List Root :=
  scanSlot onlyYoung isCode info.handleEffect (info.handler + 2)
    (scanSlot onlyYoung isCode info.handleExn (info.handler + 1)
      (scanSlot onlyYoung isCode info.handleValue info.handler
        (scanStackWords onlyYoung isCode mem (env.stackHigh info - info.sp) info.sp calls)))

/-- `caml_scan_stack` (bytecode) from `stack` on, for at most `fuel` iterations of its loop: the
calls it adds to `calls`, or `none` if it reads a stack with no record or needs more iterations. -/
def camlScanStack (env : Env) (onlyYoung : Bool) (isCode : Nat → Bool) (mem : Nat → Nat)
    (records : Stacks) : Nat → Option Nat → List Root → Option (List Root)
  | 0, _, _ => none
  | _ + 1, none, calls => some calls
  | fuel + 1, some stack, calls =>
      match records stack with
      | none => none
      | some info =>
          camlScanStack env onlyYoung isCode mem records fuel info.parent
            (scanOneStack env onlyYoung isCode mem info calls)

/-- A `struct caml__roots_block`: `ntables` tables of `nitems` values, `tables[i]` the address of
the `i`-th. -/
structure RootsBlock where
  /-- `nitems`. -/
  nitems : Nat
  /-- `tables[0]`, ..., `tables[ntables - 1]`. -/
  tables : List Nat
  deriving DecidableEq, Repr

/-- The loop `for (j = 0; j < lr->nitems; j++)` over `count` slots of the table at `table`, from
`j`: `f` on every non-zero slot. -/
def scanRootsTable (mem : Nat → Nat) (table : Nat) : Nat → Nat → List Root → List Root
  | 0, _, calls => calls
  | count + 1, j, calls =>
      scanRootsTable mem table count (j + 1)
        (if mem (table + j) ≠ 0 then calls ++ [⟨mem (table + j), table + j⟩] else calls)

/-- The loops over `local_roots`, block after block along `next`, table after table. -/
def scanLocalRoots (mem : Nat → Nat) : List RootsBlock → List Root → List Root
  | [], calls => calls
  | block :: blocks, calls =>
      scanLocalRoots mem blocks
        (block.tables.foldl (fun calls table => scanRootsTable mem table block.nitems 0 calls) calls)

/-- `caml_do_local_roots` (bytecode) on the current stack `stack`, the loop of `caml_scan_stack`
running at most `fuel` times. -/
def camlDoLocalRoots (env : Env) (onlyYoung : Bool) (isCode : Nat → Bool) (fuel : Nat)
    (rt : Runtime) (localRoots : List RootsBlock) (stack : Nat) : Option (List Root) :=
  camlScanStack env onlyYoung isCode rt.mem rt.records fuel (some stack)
    (scanLocalRoots rt.mem localRoots [])

/-! ## The slots the collector is shown -/

/-- The slots of a stack the scan looks at: its words from `sp` up to `Stack_high`, and its three
handlers. -/
def stackSlots (env : Env) (mem : Nat → Nat) (info : StackInfo) : List Root :=
  (List.range' info.sp (env.stackHigh info - info.sp)).map (fun p => ⟨mem p, p⟩) ++
    [⟨info.handleValue, info.handler⟩, ⟨info.handleExn, info.handler + 1⟩,
      ⟨info.handleEffect, info.handler + 2⟩]

/-- The slots of a stack whose values pass `is_scannable`, in the order of the scan. -/
def stackRoots (env : Env) (onlyYoung : Bool) (isCode : Nat → Bool) (mem : Nat → Nat)
    (info : StackInfo) : List Root :=
  (stackSlots env mem info).filter fun root => isScannable onlyYoung isCode root.value

/-- The non-zero slots of the local-root tables, block by block and table by table. -/
def localRootCalls (mem : Nat → Nat) (blocks : List RootsBlock) : List Root :=
  ((blocks.flatMap fun block => block.tables.flatMap fun table => List.range' table block.nitems).filter
    fun p => mem p ≠ 0).map fun p => ⟨mem p, p⟩

theorem scanSlot_eq (onlyYoung : Bool) (isCode : Nat → Bool) (value slot : Nat)
    (calls : List Root) :
    scanSlot onlyYoung isCode value slot calls =
      calls ++ [(⟨value, slot⟩ : Root)].filter fun root => isScannable onlyYoung isCode root.value := by
  unfold scanSlot
  split <;> simp [*]

theorem scanStackWords_eq (onlyYoung : Bool) (isCode : Nat → Bool) (mem : Nat → Nat) :
    ∀ count sp calls, scanStackWords onlyYoung isCode mem count sp calls =
      calls ++ ((List.range' sp count).map fun p => (⟨mem p, p⟩ : Root)).filter
        fun root => isScannable onlyYoung isCode root.value
  | 0, _, _ => by simp [scanStackWords]
  | count + 1, sp, calls => by
      rw [scanStackWords, scanStackWords_eq onlyYoung isCode mem count, scanSlot_eq,
        List.range'_succ, List.map_cons, List.filter_cons]
      split <;> simp [*]

theorem scanOneStack_eq (env : Env) (onlyYoung : Bool) (isCode : Nat → Bool) (mem : Nat → Nat)
    (info : StackInfo) (calls : List Root) :
    scanOneStack env onlyYoung isCode mem info calls =
      calls ++ stackRoots env onlyYoung isCode mem info := by
  simp only [scanOneStack, scanSlot_eq, scanStackWords_eq, stackRoots, stackSlots, List.append_assoc]
  rw [List.filter_append]
  simp only [← List.filter_append]
  rfl

theorem ParentChain.camlScanStack_eq {env : Env} {onlyYoung : Bool} {isCode : Nat → Bool}
    {mem : Nat → Nat} {records : Stacks} {first : Option Nat} {chain : List (Nat × StackInfo)}
    (linked : ParentChain records first chain) :
    ∀ {fuel calls}, chain.length < fuel →
      camlScanStack env onlyYoung isCode mem records fuel first calls =
        some (calls ++ chain.flatMap fun link => stackRoots env onlyYoung isCode mem link.2) := by
  induction linked with
  | null =>
      intro fuel calls enough
      cases fuel with
      | zero => cases enough
      | succ fuel => simp [camlScanStack]
  | link found _ induction =>
      intro fuel calls enough
      cases fuel with
      | zero => cases enough
      | succ fuel =>
          rw [camlScanStack, found]
          dsimp only
          rw [induction (by simp only [List.length_cons] at enough; omega), scanOneStack_eq]
          simp

theorem scanRootsTable_eq (mem : Nat → Nat) (table : Nat) :
    ∀ count j calls, scanRootsTable mem table count j calls =
      calls ++ ((List.range' (table + j) count).filter fun p => mem p ≠ 0).map
        fun p => (⟨mem p, p⟩ : Root)
  | 0, _, _ => by simp [scanRootsTable]
  | count + 1, j, calls => by
      rw [scanRootsTable, scanRootsTable_eq mem table count, List.range'_succ, List.filter_cons,
        show table + j + 1 = table + (j + 1) by omega]
      split <;> simp [*]

theorem scanLocalRoots_eq (mem : Nat → Nat) :
    ∀ blocks calls, scanLocalRoots mem blocks calls = calls ++ localRootCalls mem blocks
  | [], calls => by simp [scanLocalRoots, localRootCalls]
  | block :: blocks, calls => by
      have tables : ∀ (tables : List Nat) calls,
          tables.foldl (fun calls table => scanRootsTable mem table block.nitems 0 calls) calls =
            calls ++ localRootCalls mem [⟨block.nitems, tables⟩] := by
        intro tables
        induction tables with
        | nil => simp [localRootCalls]
        | cons table tables induction =>
            intro calls
            rw [List.foldl_cons, induction, scanRootsTable_eq]
            simp [localRootCalls]
      rw [scanLocalRoots, scanLocalRoots_eq mem blocks, tables]
      simp [localRootCalls]

/-- `caml_do_local_roots` (bytecode) on a current stack whose parent chain reaches `NULL`, with an
iteration for each stack and one for `NULL`, calls `f` on each non-zero slot of the local-root
tables, then, stack by stack, on each word from `sp` up to `Stack_high` and each handler whose value
passes `is_scannable`, once each and in that order, and on nothing else.  Outside the young-only
mode no stack slot or handler that `f` receives holds an immediate or a code pointer, and every one
that holds another block reaches `f`. -/
theorem do_local_roots_reports {env : Env} {onlyYoung : Bool} {isCode : Nat → Bool}
    {rt : Runtime} {localRoots : List RootsBlock} {stack fuel : Nat}
    {chain : List (Nat × StackInfo)} (linked : ParentChain rt.records (some stack) chain)
    (enough : chain.length < fuel) :
    camlDoLocalRoots env onlyYoung isCode fuel rt localRoots stack =
      some (localRootCalls rt.mem localRoots ++
        chain.flatMap fun link => stackRoots env onlyYoung isCode rt.mem link.2) ∧
    (onlyYoung = false → ∀ link ∈ chain, ∀ root ∈ stackRoots env onlyYoung isCode rt.mem link.2,
      root.value % 2 = 0 ∧ isCode root.value = false) ∧
    ∀ link ∈ chain, ∀ root ∈ stackSlots env rt.mem link.2, root.value % 2 = 0 →
      isCode root.value = false → root ∈ stackRoots env onlyYoung isCode rt.mem link.2 := by
  refine ⟨?_, fun young _ _ root reported => ?_, fun _ _ root slot even code => ?_⟩
  · rw [camlDoLocalRoots, linked.camlScanStack_eq enough, scanLocalRoots_eq, List.nil_append]
  · obtain ⟨-, scannable⟩ := List.mem_filter.mp reported
    simp only [isScannable, young, Bool.false_or, Bool.and_eq_true, beq_iff_eq,
      Bool.not_eq_true'] at scannable
    exact scannable
  · exact List.mem_filter.mpr ⟨slot, by simp [isScannable, even, code]⟩

/-- A bytecode stack at `4096` with two live words, a block and an immediate, and with the handlers
`Val_unit`, a code pointer and a block. -/
def scannedStack : StackInfo := ⟨4169, none, 4172, 1, 9000, 6000, none, -1, 0, 0, none, 0, none, 0⟩

/-- The words of the scanned run: the stack's two live words, and a local-root table at `100`
whose second slot is zero. -/
def scannedMem (address : Nat) : Nat :=
  if address = 4169 then 5000 else if address = 4170 then 7 else if address = 100 then 42 else 0

/-- The runtime whose only stack is the scanned one. -/
def scannedRuntime : Runtime := { Runtime.single 4096 scannedStack 1024 with mem := scannedMem }

/-- The collector is shown the non-zero local root, the block on the stack and the effect handler,
with `9000` a code pointer. -/
theorem scanned_stack_roots :
    ParentChain scannedRuntime.records (some 4096) [(4096, scannedStack)] ∧
      [(4096, scannedStack)].length < 2 ∧
      camlDoLocalRoots (samplePlatform .plain false 64) false (fun v => v == 9000) 2 scannedRuntime
          [⟨2, [100]⟩] 4096 = some [⟨42, 100⟩, ⟨5000, 4169⟩, ⟨6000, 4174⟩] :=
  have linked : ParentChain scannedRuntime.records (some 4096) [(4096, scannedStack)] :=
    .link rfl .null
  ⟨linked, by decide, (do_local_roots_reports linked (by decide)).1.trans (by decide)⟩

end FiberRuntime
