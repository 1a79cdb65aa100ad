import FiberRuntime.LocalWalk

/-!
# What `scan_local_allocations` does on a walked region

The scan as a walk over the blocks of the region: the loop of `scan_local_allocations` is the
`scanBlock` of each walked block in turn, as long as the scan only recolours the headers of walked
blocks.  `visit` on a field does one of three things: it reports a young or major-heap value, it
marks the walked block an unmarked local value points into, or it leaves the value alone.
-/

namespace FiberRuntime

/-- The scan of the walked blocks, one `scanBlock` after the other. -/
def scanBlocks (young : Nat → Bool) (garbage : Nat) (arenas : List LocalArena) :
    List LocalBlock → ScanState → Except String ScanState
  | [], st => .ok st
  | block :: rest, st =>
      scanBlock young garbage arenas block.ix block.sp st >>= scanBlocks young garbage arenas rest

/-- The memory `mem` is `mem0` with the header of each walked block recoloured to `colour block`,
unmarked or marked. -/
structure Recoloured (arenas : List LocalArena) (blocks : List LocalBlock) (garbage : Nat)
    (mem0 mem : Nat → Nat) (colour : LocalBlock → Nat) : Prop where
  /-- A walked block's header, with its colour. -/
  headers : ∀ block ∈ blocks,
    mem (block.header arenas / 8) = withStatusHd (mem0 (block.header arenas / 8)) (colour block)
  /-- Every other word. -/
  others : ∀ word, (∀ block ∈ blocks, block.header arenas / 8 ≠ word) → mem word = mem0 word
  /-- `NOT_MARKABLE` or `colors.GARBAGE`. -/
  colours : ∀ block ∈ blocks, colour block = notMarkable ∨ colour block = garbage

theorem ArenasApart.getLocalIx_eq {arenas : List LocalArena} (apart : ArenasApart arenas)
    {ix v : Nat} (inRange : ix < arenas.length) (low : (arenas.getD ix ⟨0, 0⟩).base ≤ v)
    (high : v < arenaEnd arenas ix) : getLocalIx arenas v = some ix := by
  have getD : ∀ j (lt : j < arenas.length), arenas.getD j ⟨0, 0⟩ = arenas[j] := fun j lt => by
    simp [List.getElem?_eq_getElem lt]
  unfold getLocalIx
  rw [List.findIdx?_eq_some_iff_getElem]
  refine ⟨inRange, ?_, fun j before => ?_⟩
  · rw [← getD ix inRange]
    exact decide_eq_true ⟨low, high⟩
  · have apart := apart.apart_of_ne (Nat.lt_trans before inRange) inRange (Nat.ne_of_lt before)
    rw [← getD j (Nat.lt_trans before inRange)]
    unfold arenaEnd at apart high
    simp only [decide_eq_true_eq, not_and, Nat.not_lt]
    omega

/-! ## What `visit` does with a field -/

/-- `visit` reports `v`: a young block, or a block whose header, through an infix header, has a
colour of the heap, neither `NOT_MARKABLE` nor `colors.GARBAGE`. -/
def isRootValue (mem0 : Nat → Nat) (young : Nat → Bool) (garbage v : Nat) : Bool :=
  v % 2 == 0 && (young v || (colorHd (mem0 (hpVal (blockOf mem0 v))) != garbage &&
    colorHd (mem0 (hpVal (blockOf mem0 v))) != notMarkable))

/-- `v` points into the walked block `c`: an old block whose start, through an infix header, is
`c`'s first field, with `v` inside `c`. -/
def PointsInto (arenas : List LocalArena) (mem0 : Nat → Nat) (young : Nat → Bool) (v : Nat)
    (c : LocalBlock) : Prop :=
  v % 2 = 0 ∧ young v = false ∧ blockOf mem0 v = c.header arenas + 8 ∧
    v < c.header arenas + c.size arenas mem0

/-- A value that `visit` would take for a local block, an old block whose header looks local and
which lies in an arena of the stack, points into a walked block. -/
def LocalPointer (arenas : List LocalArena) (mem0 : Nat → Nat) (young : Nat → Bool)
    (garbage : Nat) (blocks : List LocalBlock) (v : Nat) : Prop :=
  v % 2 = 0 → young v = false →
    (colorHd (mem0 (hpVal (blockOf mem0 v))) = notMarkable ∨
      colorHd (mem0 (hpVal (blockOf mem0 v))) = garbage) →
    getLocalIx arenas (blockOf mem0 v) ≠ none → ∃ c ∈ blocks, PointsInto arenas mem0 young v c

instance {arenas : List LocalArena} {mem0 : Nat → Nat} {young : Nat → Bool} {v : Nat}
    {c : LocalBlock} : Decidable (PointsInto arenas mem0 young v c) :=
  inferInstanceAs (Decidable (v % 2 = 0 ∧ young v = false ∧ blockOf mem0 v = c.header arenas + 8 ∧
    v < c.header arenas + c.size arenas mem0))

instance {arenas : List LocalArena} {mem0 : Nat → Nat} {young : Nat → Bool} {garbage : Nat}
    {blocks : List LocalBlock} {v : Nat} :
    Decidable (LocalPointer arenas mem0 young garbage blocks v) :=
  inferInstanceAs (Decidable (v % 2 = 0 → young v = false →
    (colorHd (mem0 (hpVal (blockOf mem0 v))) = notMarkable ∨
      colorHd (mem0 (hpVal (blockOf mem0 v))) = garbage) →
    getLocalIx arenas (blockOf mem0 v) ≠ none → ∃ c ∈ blocks, PointsInto arenas mem0 young v c))

namespace Recoloured

variable {arenas : List LocalArena} {blocks : List LocalBlock} {garbage : Nat} {localSp : Int}
  {mem0 mem : Nat → Nat} {colour : LocalBlock → Nat}

theorem read (rec : Recoloured arenas blocks garbage mem0 mem colour) (word : Nat) :
    (∃ block ∈ blocks, block.header arenas / 8 = word ∧
      mem word = withStatusHd (mem0 word) (colour block)) ∨
    ((∀ block ∈ blocks, block.header arenas / 8 ≠ word) ∧ mem word = mem0 word) := by
  by_cases walked : ∃ block ∈ blocks, block.header arenas / 8 = word
  · obtain ⟨block, member, rfl⟩ := walked
    exact .inl ⟨block, member, rfl, rec.headers block member⟩
  · push_neg at walked
    exact .inr ⟨walked, rec.others word walked⟩

theorem shape (rec : Recoloured arenas blocks garbage mem0 mem colour)
    (markable : garbage < notMarkable) (word : Nat) :
    tagHd (mem word) = tagHd (mem0 word) ∧ wosizeHd (mem word) = wosizeHd (mem0 word) := by
  rcases rec.read word with ⟨block, member, -, read⟩ | ⟨-, read⟩
  · have : colour block < 4 := by
      rcases rec.colours block member with colour | colour <;> rw [colour] <;>
        unfold notMarkable at * <;> omega
    rw [read, tagHd_withStatusHd, wosizeHd_withStatusHd _ this]
    exact ⟨rfl, rfl⟩
  · rw [read]
    exact ⟨rfl, rfl⟩

theorem blockOf_eq (rec : Recoloured arenas blocks garbage mem0 mem colour)
    (markable : garbage < notMarkable) (v : Nat) : blockOf mem v = blockOf mem0 v := by
  obtain ⟨tag, size⟩ := rec.shape markable (hpVal v)
  unfold blockOf
  rw [tag, size]

theorem mark (rec : Recoloured arenas blocks garbage mem0 mem colour)
    (region : LocalRegion arenas mem0 localSp blocks) {c : LocalBlock} (member : c ∈ blocks)
    (status : Nat)
    (range : status = notMarkable ∨ status = garbage) :
    Recoloured arenas blocks garbage mem0
      (Function.update mem (c.header arenas / 8) (withStatusHd (mem0 (c.header arenas / 8)) status))
      (Function.update colour c status) := by
  refine ⟨fun block listed => ?_, fun word others => ?_, fun block listed => ?_⟩
  · by_cases same : block = c
    · subst same
      simp
    · rw [Function.update_noteq (fun header => same (region.header_injective listed member header)),
        Function.update_noteq same, rec.headers block listed]
  · rw [Function.update_noteq (others c member).symm, rec.others word others]
  · by_cases same : block = c
    · subst same
      simpa using range
    · rw [Function.update_noteq same]
      exact rec.colours block listed

end Recoloured

section Visit

variable {arenas : List LocalArena} {blocks : List LocalBlock} {young : Nat → Bool}
  {garbage : Nat} {localSp : Int} {mem0 : Nat → Nat} {colour : LocalBlock → Nat}
  {st : ScanState} {p : Nat}

/-- The walked blocks carry no colour but `NOT_MARKABLE` and `colors.GARBAGE`. -/
def LocallyColoured (arenas : List LocalArena) (blocks : List LocalBlock) (garbage : Nat)
    (mem0 : Nat → Nat) : Prop :=
  ∀ block ∈ blocks, colorHd (mem0 (block.header arenas / 8)) = notMarkable ∨
    colorHd (mem0 (block.header arenas / 8)) = garbage

theorem Recoloured.colour_read (rec : Recoloured arenas blocks garbage mem0 st.mem colour)
    (markable : garbage < notMarkable) (word : Nat) :
    (∃ block ∈ blocks, block.header arenas / 8 = word ∧ colorHd (st.mem word) = colour block) ∨
    ((∀ block ∈ blocks, block.header arenas / 8 ≠ word) ∧ st.mem word = mem0 word) := by
  rcases rec.read word with ⟨block, member, same, read⟩ | other
  · refine .inl ⟨block, member, same, ?_⟩
    rw [read]
    rcases rec.colours block member with colour | colour <;> rw [colour] <;>
      exact colorHd_withStatusHd (by unfold notMarkable at *; omega)
  · exact .inr other

theorem visit_root (rec : Recoloured arenas blocks garbage mem0 st.mem colour)
    (markable : garbage < notMarkable) (coloured : LocallyColoured arenas blocks garbage mem0)
    (slot : st.mem (p / 8) = mem0 (p / 8))
    (root : isRootValue mem0 young garbage (mem0 (p / 8)) = true) :
    visit young garbage (some arenas) p st = (none, st.report p) := by
  unfold isRootValue at root
  simp only [Bool.and_eq_true, beq_iff_eq, Bool.or_eq_true, bne_iff_ne, ne_eq] at root
  obtain ⟨even, young | ⟨notGarbage, notLocal⟩⟩ := root
  · simp [visit, slot, even, young]
  · have unchanged : st.mem (hpVal (blockOf mem0 (mem0 (p / 8)))) =
        mem0 (hpVal (blockOf mem0 (mem0 (p / 8)))) := by
      rcases rec.colour_read markable (hpVal (blockOf mem0 (mem0 (p / 8)))) with
        ⟨block, member, same, -⟩ | ⟨-, read⟩
      · rw [← same] at notGarbage notLocal
        rcases coloured block member with unmarked | marked
        · exact absurd unmarked notLocal
        · exact absurd marked notGarbage
      · exact read
    by_cases isYoung : young (mem0 (p / 8)) = true
    · simp [visit, slot, even, isYoung]
    · simp [visit, slot, even, isYoung, rec.blockOf_eq markable, unchanged, notGarbage, notLocal]

theorem visit_into (rec : Recoloured arenas blocks garbage mem0 st.mem colour)
    (region : LocalRegion arenas mem0 localSp blocks) (markable : garbage < notMarkable)
    (slot : st.mem (p / 8) = mem0 (p / 8)) {c : LocalBlock} (member : c ∈ blocks)
    (into : PointsInto arenas mem0 young (mem0 (p / 8)) c) :
    visit young garbage (some arenas) p st =
      if colour c = garbage then (none, st)
      else (some c.ix, st.write (c.header arenas / 8)
        (withStatusHd (mem0 (c.header arenas / 8)) garbage)) := by
  obtain ⟨even, notYoung, start, inside⟩ := into
  obtain ⟨inRange, low, high, -, -⟩ := region.header_inside member
  have header : hpVal (c.header arenas + 8) = c.header arenas / 8 := by unfold hpVal; omega
  have small : colour c < 4 := by
    rcases rec.colours c member with colour | colour <;> rw [colour] <;>
      unfold notMarkable at * <;> omega
  have colourNow : colorHd (st.mem (c.header arenas / 8)) = colour c := by
    rw [rec.headers c member]
    exact colorHd_withStatusHd small
  have found : getLocalIx arenas (c.header arenas + 8) = some c.ix := by
    have := blockOf_le mem0 (mem0 (p / 8))
    exact region.apart.getLocalIx_eq inRange (by omega) (by omega)
  unfold visit
  simp only [slot, even, notYoung, rec.blockOf_eq markable, start, header, colourNow, found,
    ne_eq, not_true_eq_false, if_false, Bool.false_eq_true]
  by_cases marked : colour c = garbage
  · simp [marked]
  · have unmarked : colour c = notMarkable := (rec.colours c member).resolve_right marked
    rw [rec.headers c member, unmarked, withStatusHd_withStatusHd _ (by decide)]
    simp [unmarked, marked]

theorem visit_other (rec : Recoloured arenas blocks garbage mem0 st.mem colour)
    (markable : garbage < notMarkable) (coloured : LocallyColoured arenas blocks garbage mem0)
    (slot : st.mem (p / 8) = mem0 (p / 8))
    (notRoot : isRootValue mem0 young garbage (mem0 (p / 8)) = false)
    (pointer : LocalPointer arenas mem0 young garbage blocks (mem0 (p / 8)))
    (nowhere : ∀ c ∈ blocks, ¬PointsInto arenas mem0 young (mem0 (p / 8)) c) :
    visit young garbage (some arenas) p st = (none, st) := by
  unfold isRootValue at notRoot
  unfold visit
  simp only [slot, rec.blockOf_eq markable]
  by_cases odd : mem0 (p / 8) % 2 = 0
  swap
  · rw [if_pos odd]
  by_cases isYoung : young (mem0 (p / 8)) = true
  · simp [odd, isYoung] at notRoot
  by_cases marked : colorHd (st.mem (hpVal (blockOf mem0 (mem0 (p / 8))))) = garbage
  · rw [if_neg (not_not.mpr odd), if_neg isYoung, if_pos marked]
  rw [if_neg (not_not.mpr odd), if_neg isYoung, if_neg marked]
  split_ifs with unmarked
  · split
    · rfl
    · rename_i found
      have looksLocal : colorHd (mem0 (hpVal (blockOf mem0 (mem0 (p / 8))))) = notMarkable ∨
          colorHd (mem0 (hpVal (blockOf mem0 (mem0 (p / 8))))) = garbage := by
        rcases rec.colour_read markable (hpVal (blockOf mem0 (mem0 (p / 8)))) with
          ⟨block, member, same, -⟩ | ⟨-, read⟩
        · rw [← same]
          exact coloured block member
        · rw [← read]
          exact .inl unmarked
      obtain ⟨c, member, into⟩ := pointer odd (by simpa using isYoung) looksLocal
        (by rw [found]; exact Option.some_ne_none _)
      exact absurd into (nowhere c member)
  · rcases rec.colour_read markable (hpVal (blockOf mem0 (mem0 (p / 8)))) with
      ⟨block, member, same, now⟩ | ⟨-, read⟩
    · rw [now] at marked unmarked
      rcases rec.colours block member with colour | colour
      · exact absurd colour unmarked
      · exact absurd colour marked
    · rw [read] at marked unmarked
      simp [odd, isYoung, marked, unmarked] at notRoot

end Visit

/-! ## The fields of a walked block -/

namespace LocalBlock

/-- The first field the scan visits: for a closure, `Start_env_closinfo` of its info word, the
second field. -/
def fieldStart (arenas : List LocalArena) (mem : Nat → Nat) (block : LocalBlock) : Nat :=
  if tagHd (mem (block.header arenas / 8)) = closureTag then
    startEnvClosinfo (mem (block.header arenas / 8 + 2))
  else 0

/-- How many fields the scan visits: none from `No_scan_tag` on, and otherwise those from
`fieldStart` below `Scannable_wosize_hd`. -/
def fieldCount (arenas : List LocalArena) (mem : Nat → Nat) (block : LocalBlock) : Nat :=
  if noScanTag ≤ tagHd (mem (block.header arenas / 8)) then 0
  else scannableWosizeHd (mem (block.header arenas / 8)) - block.fieldStart arenas mem

/-- `Op_val(Val_hp(hp)) + i`: the byte address of field `i`. -/
def fieldSlot (arenas : List LocalArena) (block : LocalBlock) (i : Nat) : Nat :=
  block.header arenas + 8 + 8 * i

/-- The slots of the fields the scan visits, in order. -/
def fieldSlots (arenas : List LocalArena) (mem : Nat → Nat) (block : LocalBlock) : List Nat :=
  (List.range' (block.fieldStart arenas mem) (block.fieldCount arenas mem)).map
    (block.fieldSlot arenas)

/-- The slots among them that the scan reports: those holding a young or major-heap value. -/
def rootSlots (arenas : List LocalArena) (mem : Nat → Nat) (young : Nat → Bool) (garbage : Nat)
    (block : LocalBlock) : List Nat :=
  (block.fieldSlots arenas mem).filter fun p => isRootValue mem young garbage (mem (p / 8))

end LocalBlock

section Fields

variable {arenas : List LocalArena} {blocks : List LocalBlock} {young : Nat → Bool}
  {garbage : Nat} {localSp : Int} {mem0 : Nat → Nat} {colour : LocalBlock → Nat}
  {st : ScanState}

theorem PointsInto.unique (region : LocalRegion arenas mem0 localSp blocks) {v : Nat}
    {c c' : LocalBlock} (into : PointsInto arenas mem0 young v c)
    (into' : PointsInto arenas mem0 young v c') (member : c ∈ blocks) (member' : c' ∈ blocks) :
    c = c' :=
  region.header_injective member member' (by have := into.2.2.1; have := into'.2.2.1; omega)

theorem PointsInto.not_root (coloured : LocallyColoured arenas blocks garbage mem0) {v : Nat}
    {c : LocalBlock} (into : PointsInto arenas mem0 young v c) (member : c ∈ blocks) :
    isRootValue mem0 young garbage v = false := by
  obtain ⟨-, notYoung, start, -⟩ := into
  have header : hpVal (c.header arenas + 8) = c.header arenas / 8 := by unfold hpVal; omega
  unfold isRootValue
  rcases coloured c member with local' | local' <;>
    simp [notYoung, start, header, local']

theorem Recoloured.field (rec : Recoloured arenas blocks garbage mem0 st.mem colour)
    (region : LocalRegion arenas mem0 localSp blocks) {b : LocalBlock} (member : b ∈ blocks)
    {k : Nat} (field : k < wosizeHd (mem0 (b.header arenas / 8))) :
    st.mem (b.header arenas / 8 + 1 + k) = mem0 (b.header arenas / 8 + 1 + k) :=
  rec.others _ fun _ listed => (region.field_ne_header member listed field).symm

theorem LocalBlock.fieldSlot_div (region : LocalRegion arenas mem0 localSp blocks)
    {b : LocalBlock} (member : b ∈ blocks) (i : Nat) :
    b.fieldSlot arenas i / 8 = b.header arenas / 8 + 1 + i := by
  have := (region.header_inside member).2.2.2.2
  unfold LocalBlock.fieldSlot
  omega

/-- What the scan of the fields at `slots` ends with, from a state recoloured by `colour`: a
backwards pointer into a walked block stops it, or it returns having reported the root slots in
order and marked every walked block a field points into, the first pointer into each block it
marked having passed the forward test. -/
def FieldsOutcome (arenas : List LocalArena) (blocks : List LocalBlock) (young : Nat → Bool)
    (garbage : Nat) (mem0 : Nat → Nat) (sp : Int) (slots : List Nat) (st : ScanState)
    (colour : LocalBlock → Nat) (result : Except String ScanState) : Prop :=
  (result = .error "backwards local pointer" ∧ ∃ p ∈ slots, ∃ c ∈ blocks,
      PointsInto arenas mem0 young (mem0 (p / 8)) c ∧
      ¬sp ≤ (mem0 (p / 8) : Int) - arenaEnd arenas c.ix) ∨
    ∃ st' colour', result = .ok st' ∧ Recoloured arenas blocks garbage mem0 st'.mem colour' ∧
      st'.roots = st.roots ++ slots.filter (fun p => isRootValue mem0 young garbage (mem0 (p / 8))) ∧
      (∀ c ∈ blocks, (∃ p ∈ slots, PointsInto arenas mem0 young (mem0 (p / 8)) c) →
        colour' c = garbage) ∧
      (∀ c, (∀ p ∈ slots, ¬PointsInto arenas mem0 young (mem0 (p / 8)) c) → colour' c = colour c) ∧
      ∀ c ∈ blocks, colour c ≠ garbage → ∀ p ∈ slots, PointsInto arenas mem0 young (mem0 (p / 8)) c →
        ∃ q ∈ slots, PointsInto arenas mem0 young (mem0 (q / 8)) c ∧
          sp ≤ (mem0 (q / 8) : Int) - arenaEnd arenas c.ix

namespace FieldsOutcome

variable {sp : Int} {slots : List Nat} {p : Nat} {result : Except String ScanState}

theorem nil (rec : Recoloured arenas blocks garbage mem0 st.mem colour) :
    FieldsOutcome arenas blocks young garbage mem0 sp [] st colour (.ok st) :=
  .inr ⟨st, colour, rfl, rec, by simp, by simp, fun _ _ => rfl, by simp⟩

theorem report (coloured : LocallyColoured arenas blocks garbage mem0)
    (root : isRootValue mem0 young garbage (mem0 (p / 8)) = true)
    (tail : FieldsOutcome arenas blocks young garbage mem0 sp slots (st.report p) colour result) :
    FieldsOutcome arenas blocks young garbage mem0 sp (p :: slots) st colour result := by
  have nowhere : ∀ c ∈ blocks, ¬PointsInto arenas mem0 young (mem0 (p / 8)) c :=
    fun c member into => by rw [into.not_root coloured member] at root; cases root
  rcases tail with ⟨error, q, listed, rest⟩ | ⟨st', colour', ok, rec, roots, marked, kept, first⟩
  · exact .inl ⟨error, q, .tail _ listed, rest⟩
  · refine .inr ⟨st', colour', ok, rec, by simp [roots, root], fun c member ⟨q, listed, into⟩ => ?_,
      fun c none => kept c fun q listed => none q (.tail _ listed),
      fun c member unmarked q listed into => ?_⟩
    · rcases List.mem_cons.mp listed with rfl | listed
      · exact absurd into (nowhere c member)
      · exact marked c member ⟨q, listed, into⟩
    · rcases List.mem_cons.mp listed with rfl | listed
      · exact absurd into (nowhere c member)
      · obtain ⟨q', listed', found⟩ := first c member unmarked q listed into
        exact ⟨q', .tail _ listed', found⟩

theorem skip (notRoot : isRootValue mem0 young garbage (mem0 (p / 8)) = false)
    (marked : ∀ c ∈ blocks, PointsInto arenas mem0 young (mem0 (p / 8)) c → colour c = garbage)
    (tail : FieldsOutcome arenas blocks young garbage mem0 sp slots st colour result) :
    FieldsOutcome arenas blocks young garbage mem0 sp (p :: slots) st colour result := by
  rcases tail with ⟨error, q, listed, rest⟩ | ⟨st', colour', ok, rec, roots, marks, kept, first⟩
  · exact .inl ⟨error, q, .tail _ listed, rest⟩
  · refine .inr ⟨st', colour', ok, rec, by simp [roots, notRoot], fun c member ⟨q, listed, into⟩ => ?_,
      fun c none => kept c fun q listed => none q (.tail _ listed),
      fun c member unmarked q listed into => ?_⟩
    · rcases List.mem_cons.mp listed with rfl | listed
      · by_cases later : ∃ q ∈ slots, PointsInto arenas mem0 young (mem0 (q / 8)) c
        · exact marks c member later
        · push_neg at later
          rw [kept c later]
          exact marked c member into
      · exact marks c member ⟨q, listed, into⟩
    · rcases List.mem_cons.mp listed with rfl | listed
      · exact absurd (marked c member into) unmarked
      · obtain ⟨q', listed', found⟩ := first c member unmarked q listed into
        exact ⟨q', .tail _ listed', found⟩

theorem mark (region : LocalRegion arenas mem0 localSp blocks)
    (coloured : LocallyColoured arenas blocks garbage mem0) {c : LocalBlock} (member : c ∈ blocks)
    (into : PointsInto arenas mem0 young (mem0 (p / 8)) c) (unmarked : colour c ≠ garbage)
    (forward : sp ≤ (mem0 (p / 8) : Int) - arenaEnd arenas c.ix) {word value : Nat}
    (tail : FieldsOutcome arenas blocks young garbage mem0 sp slots (st.write word value)
      (Function.update colour c garbage) result) :
    FieldsOutcome arenas blocks young garbage mem0 sp (p :: slots) st colour result := by
  have same : ∀ d ∈ blocks, PointsInto arenas mem0 young (mem0 (p / 8)) d → d = c :=
    fun d listed into' => into'.unique region into listed member
  rcases tail with ⟨error, q, listed, rest⟩ | ⟨st', colour', ok, rec, roots, marks, kept, first⟩
  · exact .inl ⟨error, q, .tail _ listed, rest⟩
  · refine .inr ⟨st', colour', ok, rec,
      by simp [roots, into.not_root coloured member], fun d listed ⟨q, onList, into'⟩ => ?_,
      fun d none => ?_, fun d listed unmarked' q onList into' => ?_⟩
    · by_cases later : ∃ q ∈ slots, PointsInto arenas mem0 young (mem0 (q / 8)) d
      · exact marks d listed later
      · push_neg at later
        rcases List.mem_cons.mp onList with rfl | onList
        · rw [kept d later, same d listed into']
          simp
        · exact absurd into' (later q onList)
    · have other : d ≠ c := by rintro rfl; exact none p (.head _) into
      rw [kept d fun q listed => none q (.tail _ listed), Function.update_noteq other]
    · by_cases this : d = c
      · subst this
        exact ⟨p, .head _, into, forward⟩
      · rcases List.mem_cons.mp onList with rfl | onList
        · exact absurd (same d listed into') this
        · obtain ⟨q', listed', found⟩ := first d listed (by rwa [Function.update_noteq this]) q
            onList into'
          exact ⟨q', .tail _ listed', found⟩

theorem stop {c : LocalBlock} (member : c ∈ blocks)
    (into : PointsInto arenas mem0 young (mem0 (p / 8)) c)
    (backward : ¬sp ≤ (mem0 (p / 8) : Int) - arenaEnd arenas c.ix) :
    FieldsOutcome arenas blocks young garbage mem0 sp (p :: slots) st colour
      (.error "backwards local pointer") :=
  .inl ⟨rfl, p, .head _, c, member, into, backward⟩

end FieldsOutcome

theorem scanFields_spec (region : LocalRegion arenas mem0 localSp blocks)
    (markable : garbage < notMarkable) (coloured : LocallyColoured arenas blocks garbage mem0)
    {b : LocalBlock} (member : b ∈ blocks) (count : Nat) :
    ∀ {i : Nat} {st : ScanState} {colour : LocalBlock → Nat},
      Recoloured arenas blocks garbage mem0 st.mem colour →
      (∀ j, i ≤ j → j < i + count → j < wosizeHd (mem0 (b.header arenas / 8))) →
      (∀ j, i ≤ j → j < i + count →
        LocalPointer arenas mem0 young garbage blocks (mem0 (b.fieldSlot arenas j / 8))) →
      FieldsOutcome arenas blocks young garbage mem0 b.sp
        ((List.range' i count).map (b.fieldSlot arenas)) st colour
        (scanFields young garbage arenas b.sp (b.header arenas) i count st) := by
  induction count with
  | zero => exact fun rec _ _ => .nil rec
  | succ count induction =>
    intro i st colour rec inside pointers
    have field : i < wosizeHd (mem0 (b.header arenas / 8)) := inside i (Nat.le_refl _) (by omega)
    have slot : st.mem (b.fieldSlot arenas i / 8) = mem0 (b.fieldSlot arenas i / 8) := by
      rw [LocalBlock.fieldSlot_div region member]
      exact rec.field region member field
    have inside' : ∀ j, i + 1 ≤ j → j < i + 1 + count →
        j < wosizeHd (mem0 (b.header arenas / 8)) := fun j low high => inside j (by omega) (by omega)
    have pointers' : ∀ j, i + 1 ≤ j → j < i + 1 + count →
        LocalPointer arenas mem0 young garbage blocks (mem0 (b.fieldSlot arenas j / 8)) :=
      fun j low high => pointers j (by omega) (by omega)
    rw [List.range'_succ, List.map_cons, scanFields,
      show b.header arenas + 8 + 8 * i = b.fieldSlot arenas i from rfl]
    by_cases root : isRootValue mem0 young garbage (mem0 (b.fieldSlot arenas i / 8)) = true
    · rw [visit_root rec markable coloured slot root]
      exact .report coloured root (@induction (i + 1) (st.report _) colour rec inside' pointers')
    have notRoot : isRootValue mem0 young garbage (mem0 (b.fieldSlot arenas i / 8)) = false := by
      simpa using root
    by_cases pointed : ∃ c ∈ blocks, PointsInto arenas mem0 young (mem0 (b.fieldSlot arenas i / 8)) c
    · obtain ⟨c, listed, into⟩ := pointed
      rw [visit_into rec region markable slot listed into]
      by_cases marked : colour c = garbage
      · rw [if_pos marked]
        exact .skip notRoot (fun d listed' into' => into'.unique region into listed' listed ▸ marked)
          (@induction (i + 1) st colour rec inside' pointers')
      · have header : b.fieldSlot arenas i / 8 ≠ c.header arenas / 8 := by
          rw [LocalBlock.fieldSlot_div region member]
          exact region.field_ne_header member listed field
        rw [if_neg marked]
        dsimp only
        rw [ScanState.write_mem, Function.update_noteq header, slot]
        by_cases forward : b.sp ≤ (mem0 (b.fieldSlot arenas i / 8) : Int) - arenaEnd arenas c.ix
        · rw [if_pos forward]
          exact .mark region coloured listed into marked forward
            (@induction (i + 1) _ _ (rec.mark region listed garbage (.inr rfl)) inside' pointers')
        · rw [if_neg forward]
          exact .stop listed into forward
    · push_neg at pointed
      rw [visit_other rec markable coloured slot notRoot (pointers i (Nat.le_refl _) (by omega))
        pointed]
      exact .skip notRoot (fun d listed into => absurd into (pointed d listed))
        (@induction (i + 1) st colour rec inside' pointers')

theorem scanBlock_unmarked (rec : Recoloured arenas blocks garbage mem0 st.mem colour)
    {b : LocalBlock} (member : b ∈ blocks) (unmarked : colour b = notMarkable) :
    scanBlock young garbage arenas b.ix b.sp st = .ok st := by
  have colourNow : colorHd (st.mem (b.header arenas / 8)) = notMarkable := by
    rw [rec.headers b member, unmarked]
    exact colorHd_withStatusHd (by decide)
  simp [scanBlock, show localHeader arenas b.ix b.sp = b.header arenas from rfl, colourNow]

theorem scanBlock_marked (rec : Recoloured arenas blocks garbage mem0 st.mem colour)
    (region : LocalRegion arenas mem0 localSp blocks) (markable : garbage < notMarkable)
    (coloured : LocallyColoured arenas blocks garbage mem0) {b : LocalBlock} (member : b ∈ blocks)
    (marked : colour b = garbage)
    (closure : tagHd (mem0 (b.header arenas / 8)) = closureTag →
      2 ≤ wosizeHd (mem0 (b.header arenas / 8)))
    (scannable : scannableWosizeHd (mem0 (b.header arenas / 8)) ≤
      wosizeHd (mem0 (b.header arenas / 8)))
    (pointers : ∀ p ∈ b.fieldSlots arenas mem0,
      LocalPointer arenas mem0 young garbage blocks (mem0 (p / 8))) :
    FieldsOutcome arenas blocks young garbage mem0 b.sp (b.fieldSlots arenas mem0)
      (st.write (b.header arenas / 8) (withStatusHd (mem0 (b.header arenas / 8)) notMarkable))
      (Function.update colour b notMarkable) (scanBlock young garbage arenas b.ix b.sp st) := by
  have small : garbage < 4 := by unfold notMarkable at markable; omega
  have read : st.mem (b.header arenas / 8) = withStatusHd (mem0 (b.header arenas / 8)) garbage := by
    rw [rec.headers b member, marked]
  have rec' := rec.mark region member notMarkable (.inl rfl)
  have start : (if tagHd (mem0 (b.header arenas / 8)) = closureTag then
      startEnvClosinfo (Function.update st.mem (b.header arenas / 8)
        (withStatusHd (mem0 (b.header arenas / 8)) notMarkable) (b.header arenas / 8 + 2))
      else 0) = b.fieldStart arenas mem0 := by
    unfold LocalBlock.fieldStart
    split_ifs with isClosure
    · rw [Function.update_noteq (by omega), rec.field region member (closure isClosure)]
    · rfl
  simp only [scanBlock, show localHeader arenas b.ix b.sp = b.header arenas from rfl, read,
    colorHd_withStatusHd small, Nat.ne_of_lt markable, withStatusHd_withStatusHd _ small,
    tagHd_withStatusHd, scannableWosizeHd_withStatusHd _ (show notMarkable < 4 by decide),
    ScanState.write_mem, start, ↓reduceIte]
  unfold LocalBlock.fieldSlots LocalBlock.fieldCount
  split_ifs with noScan
  · exact .nil rec'
  · exact scanFields_spec region markable coloured member _ rec'
      (fun j low high => by omega) fun j low high =>
        pointers _ (List.mem_map.mpr ⟨j, List.mem_range'_1.mpr ⟨low, by
          unfold LocalBlock.fieldCount
          rwa [if_neg noScan]⟩, rfl⟩)

end Fields

end FiberRuntime
