import FiberRuntime.Growth

/-!
# Rewriting the pointers into a moved stack

Once `caml_try_realloc_stack` has copied the live words `[sp, Stack_high(old))` of the old stack
to the top of the new one, three loops move the pointers into the old stack by `delta`: the
exception handler chain from `Caml_state->exn_handler`, the saved frame pointers above each
`c_stack` link made on the old stack, and the links themselves.  This file states what the copy
and the loops leave in memory, for chains that climb through the live region.  Chains may share
frames: a loop that reaches a word an earlier loop has moved stops there, since the moved
pointer leads out of the old stack, and the earlier loop has moved the frames above it.
-/

namespace FiberRuntime

/-! ## Chains through the live region -/

/-- A chain of links climbing through a stack: from `link`, each link that `inside` accepts is a
frame at or above `floor` and below `high` whose first word holds the next link, up to the first
link that `inside` does not accept. -/
inductive Climb (inside : Nat → Prop) (mem : Nat → Nat) (high : Nat) :
    Nat → Nat → List Nat → Prop
  /-- The chain leaves the stack. -/
  | leave {floor link : Nat} : ¬inside link → Climb inside mem high floor link []
  /-- A frame at `link`, above the frames before it. -/
  | frame {floor link : Nat} {frames : List Nat} : floor ≤ link → link < high →
      Climb inside mem high (link + 1) (mem link) frames →
      Climb inside mem high floor link (link :: frames)

/-- Moved slots closed under the chains between `lo` and `high`: the next frame of a moved slot,
when it holds an address between them too, is moved as well, or is `pending`. -/
def ClosedBut (lo high : Nat) (mem : Nat → Nat) (moved : List Nat) (pending : Nat) : Prop :=
  ∀ x ∈ moved, lo ≤ mem (mem x) → mem (mem x) < high → mem x ∈ moved ∨ mem x = pending

/-- Moved slots closed under the chains between `lo` and `high`. -/
def Closed (lo high : Nat) (mem : Nat → Nat) (moved : List Nat) : Prop :=
  ∀ x ∈ moved, lo ≤ mem (mem x) → mem (mem x) < high → mem x ∈ moved

theorem Closed.closedBut {lo high : Nat} {mem : Nat → Nat} {moved : List Nat}
    (closed : Closed lo high mem moved) (pending : Nat) : ClosedBut lo high mem moved pending :=
  fun x held low below => .inl (closed x held low below)

theorem ClosedBut.closed {lo high : Nat} {mem : Nat → Nat} {moved : List Nat} {pending : Nat}
    (closed : ClosedBut lo high mem moved pending) (held : pending ∈ moved) :
    Closed lo high mem moved := fun x held' low below =>
  (closed x held' low below).elim id fun same => same ▸ held

namespace Climb

variable {inside : Nat → Prop} {mem : Nat → Nat} {high floor link : Nat} {frames : List Nat}

theorem bounds (chain : Climb inside mem high floor link frames) :
    ∀ x ∈ frames, floor ≤ x ∧ x < high := by
  induction chain with
  | leave => intro x member; cases member
  | frame above below _ ih =>
      intro x member
      rcases List.mem_cons.mp member with rfl | later
      · exact ⟨above, below⟩
      · have := ih x later
        omega

theorem mem_iff (chain : Climb inside mem high floor link frames) {lo : Nat}
    (sub : ∀ y, lo ≤ y → y < high → inside y) (above : lo ≤ floor) {x : Nat}
    (accepted : x = link ∨ x ∈ frames) : x ∈ frames ↔ inside x := by
  constructor
  · intro member
    have := chain.bounds x member
    exact sub x (by omega) this.2
  · intro accepts
    cases chain with
    | leave outside =>
        rcases accepted with rfl | member
        · exact absurd accepts outside
        · cases member
    | frame =>
        rcases accepted with rfl | member
        · exact List.mem_cons_self _ _
        · exact member

theorem mem_dropLast (chain : Climb inside mem high floor link frames) {lo : Nat}
    (sub : ∀ y, lo ≤ y → y < high → inside y) (above : lo ≤ floor) :
    ∀ x, x ∈ frames.dropLast ↔ x ∈ frames ∧ lo ≤ mem x ∧ mem x < high := by
  induction chain with
  | leave => simp
  | @frame floor link frames atLeast below rest ih =>
      intro x
      cases rest with
      | leave outside =>
          simp only [List.dropLast_single, List.not_mem_nil, List.mem_singleton, false_iff,
            not_and]
          rintro rfl low high'
          exact outside (sub _ low high')
      | @frame _ _ frames' next below' rest' =>
          rw [List.dropLast_cons₂, List.mem_cons, ih (by omega) x]
          constructor
          · rintro (rfl | ⟨member, bounded⟩)
            · exact ⟨List.mem_cons_self _ _, by omega, below'⟩
            · exact ⟨List.mem_cons_of_mem _ member, bounded⟩
          · rintro ⟨member, bounded⟩
            rcases List.mem_cons.mp member with rfl | later
            · exact .inl rfl
            · exact .inr ⟨later, bounded⟩

theorem closed_dropLast (chain : Climb inside mem high floor link frames) {lo : Nat}
    (sub : ∀ y, lo ≤ y → y < high → inside y) (above : lo ≤ floor) :
    Closed lo high mem frames.dropLast := by
  intro x member low below
  have found := (chain.mem_dropLast sub above x).mp member
  refine (chain.mem_dropLast sub above _).mpr ⟨?_, low, below⟩
  clear member low below
  induction chain with
  | leave => cases found.1
  | @frame floor link frames atLeast below rest ih =>
      rcases List.mem_cons.mp found.1 with rfl | later
      · cases rest with
        | leave outside => exact absurd (sub _ found.2.1 found.2.2) outside
        | frame => exact List.mem_cons_of_mem _ (List.mem_cons_self _ _)
      · exact List.mem_cons_of_mem _ (ih (by omega) ⟨later, found.2⟩)

theorem covers (chain : Climb inside mem high floor link frames) {lo : Nat} {moved : List Nat}
    (closed : Closed lo high mem moved) :
    ∀ {start : Nat}, start ∈ moved → lo ≤ start → start < floor → mem start = link →
      ∀ x ∈ (start :: frames).dropLast, x ∈ moved := by
  induction chain with
  | leave => intro start held _ _ _ x member; simp at member
  | @frame floor link frames atLeast below rest ih =>
      intro start held low before linked x member
      rw [List.dropLast_cons₂] at member
      rcases List.mem_cons.mp member with rfl | later
      · exact held
      · cases rest with
        | leave => simp at later
        | @frame _ _ _ next below' _ =>
            have linkHeld : link ∈ moved := linked ▸ closed start held
              (by rw [linked]; omega) (by rw [linked]; exact below')
            exact ih linkHeld (by omega) (Nat.lt_succ_self link) rfl x later

end Climb

/-! ## Moving the live region -/

/-- A `c_stack` link once the stack `oldStack` has moved to `newStack`: a link made on it names the
new stack at the moved `sp`, with its saved frame pointer moved when it pointed into the old stack
and frame pointers are kept; the `async_exn_handler` of any link into the old stack is moved. -/
def CStackLink.relocate (env : Env) (reloc : Relocation) (oldStack newStack : Nat)
    (link : CStackLink) : CStackLink where
  stack := if link.stack = oldStack then newStack else link.stack
  sp := if link.stack = oldStack then reloc.move link.sp else link.sp
  asyncExnHandler :=
    if reloc.oldBase ≤ link.asyncExnHandler ∧ link.asyncExnHandler < reloc.oldHigh then
      reloc.move link.asyncExnHandler
    else link.asyncExnHandler
  framePrev :=
    if link.stack = oldStack ∧ env.withFramePointers = true ∧ reloc.oldBase ≤ link.framePrev ∧
        link.framePrev < reloc.oldHigh then reloc.move link.framePrev
    else link.framePrev

namespace Relocation

/-- The links `caml_rewrite_exception_stack` follows: in `(Stack_base(old), Stack_high(old)]`. -/
abbrev TrapChain (reloc : Relocation) (mem : Nat → Nat) : Nat → Nat → List Nat → Prop :=
  Climb (fun link => reloc.oldBase < link ∧ link ≤ reloc.oldHigh) mem reloc.oldHigh

/-- The saved frame pointers the `c_stack` loop follows: in `[Stack_base(old), Stack_high(old))`. -/
abbrev FrameChain (reloc : Relocation) (mem : Nat → Nat) : Nat → Nat → List Nat → Prop :=
  Climb (fun link => reloc.oldBase ≤ link ∧ link < reloc.oldHigh) mem reloc.oldHigh

/-- `address` moved when it is one of `links`. -/
def moveAt (reloc : Relocation) (links : List Nat) (address : Nat) : Nat :=
  if address ∈ links then reloc.move address else address

/-- The live region `[sp, Stack_high(old))`, with `sp` above `Stack_base(old)`, moves to the top of
a new stack that holds it, away from `[Stack_base(old), Stack_high(old)]`. -/
structure Apart (reloc : Relocation) (sp : Nat) : Prop where
  base_lt : reloc.oldBase < sp
  le_high : sp ≤ reloc.oldHigh
  room : reloc.oldHigh - sp ≤ reloc.newHigh
  away : reloc.newHigh ≤ reloc.oldBase ∨ reloc.oldHigh < reloc.newHigh - (reloc.oldHigh - sp)

/-- The memory `mem`, against the memory `mem0` before the copy, once each live word of the old
stack sits at its moved address, itself moved when its slot is one of `moved`: a moved slot is a
live word holding a live address, and no word outside the new live region has changed. -/
structure Relocated (reloc : Relocation) (sp : Nat) (mem0 : Nat → Nat) (moved : List Nat)
    (mem : Nat → Nat) : Prop where
  live : ∀ x, sp ≤ x → x < reloc.oldHigh →
    mem (reloc.move x) = if x ∈ moved then reloc.move (mem0 x) else mem0 x
  slots : ∀ x ∈ moved, sp ≤ x ∧ x < reloc.oldHigh ∧ sp ≤ mem0 x ∧ mem0 x < reloc.oldHigh
  outside : ∀ address, ¬(reloc.move sp ≤ address ∧ address < reloc.newHigh) →
    mem address = mem0 address

variable {reloc : Relocation} {sp : Nat}

theorem Apart.move_add (apart : reloc.Apart sp) {x : Nat} (live : sp ≤ x) :
    reloc.move x + reloc.oldHigh = x + reloc.newHigh := by
  have := apart.room
  have := apart.le_high
  unfold move offsetBy delta
  omega

theorem Apart.move_eq (apart : reloc.Apart sp) {x : Nat} (live : sp ≤ x) :
    reloc.move x = x + reloc.newHigh - reloc.oldHigh := by
  have := apart.move_add live
  omega

theorem Apart.move_out (apart : reloc.Apart sp) {x : Nat} (live : sp ≤ x)
    (below : x < reloc.oldHigh) :
    reloc.move sp ≤ reloc.move x ∧ reloc.move x < reloc.newHigh ∧
      (reloc.move x < reloc.oldBase ∨ reloc.oldHigh < reloc.move x) := by
  have moved := apart.move_add live
  have start := apart.move_add (Nat.le_refl sp)
  have := apart.base_lt
  rcases apart.away with low | high <;> omega

theorem move_eq_sub (link : Nat) :
    ((reloc.newHigh : Int) - ((reloc.oldHigh : Int) - link)).toNat = reloc.move link := by
  unfold move offsetBy delta
  omega

theorem Apart.relocated_copy (apart : reloc.Apart sp) (mem0 : Nat → Nat) :
    Relocated reloc sp mem0 [] (copyWords mem0 (reloc.move sp) sp (reloc.oldHigh - sp)) := by
  have start := apart.move_add (Nat.le_refl sp)
  refine ⟨fun x live below => ?_, (fun _ none => by cases none), fun address outside => ?_⟩
  · have moved := apart.move_add live
    simp only [copyWords, List.not_mem_nil, if_false]
    rw [if_pos (by omega)]
    congr 1
    omega
  · unfold copyWords
    rw [if_neg (by omega)]

namespace Relocated

variable {mem0 mem : Nat → Nat} {moved : List Nat}

theorem read_fresh (rel : Relocated reloc sp mem0 moved mem) {x : Nat} (live : sp ≤ x)
    (below : x < reloc.oldHigh) (fresh : x ∉ moved) : mem (reloc.move x) = mem0 x := by
  rw [rel.live x live below, if_neg fresh]

theorem read_moved (rel : Relocated reloc sp mem0 moved mem) {x : Nat} (slot : x ∈ moved) :
    mem (reloc.move x) = reloc.move (mem0 x) := by
  obtain ⟨live, below, -⟩ := rel.slots x slot
  rw [rel.live x live below, if_pos slot]

theorem write (rel : Relocated reloc sp mem0 moved mem) (apart : reloc.Apart sp) {x : Nat}
    (live : sp ≤ x) (below : x < reloc.oldHigh) (target : sp ≤ mem0 x)
    (targetBelow : mem0 x < reloc.oldHigh) :
    Relocated reloc sp mem0 (x :: moved)
      (Function.update mem (reloc.move x) (reloc.move (mem0 x))) := by
  have shifted := apart.move_add live
  refine ⟨fun y live' below' => ?_, fun y slot => ?_, fun address outside => ?_⟩
  · by_cases same : y = x
    · subst same
      simp
    · have distinct : reloc.move y ≠ reloc.move x := fun eq => same (by
        have := apart.move_add live'
        omega)
      rw [Function.update_noteq distinct, rel.live y live' below']
      simp [same]
  · rcases List.mem_cons.mp slot with rfl | earlier
    · exact ⟨live, below, target, targetBelow⟩
    · exact rel.slots y earlier
  · have := apart.move_out live below
    rw [Function.update_noteq (by omega), rel.outside address outside]

end Relocated

/-! ## The exception handler chain -/

theorem Apart.move_not_mem (apart : reloc.Apart sp) {inside : Nat → Prop} {mem : Nat → Nat}
    {floor link : Nat} {frames : List Nat} (chain : Climb inside mem reloc.oldHigh floor link frames)
    (above : sp ≤ floor) {x : Nat} (live : sp ≤ x) (below : x < reloc.oldHigh) :
    reloc.move x ∉ frames := fun member => by
  have := chain.bounds _ member
  have := apart.move_out live below
  have := apart.base_lt
  omega

theorem moveAt_cons {links : List Nat} {link : Nat} (out : reloc.move link ∉ links)
    (address : Nat) :
    reloc.moveAt links (if link = address then reloc.move link else address) =
      reloc.moveAt (link :: links) address := by
  unfold moveAt
  by_cases same : link = address
  · subst same
    simp [out]
  · simp [same, Ne.symm same]

theorem rewriteExceptionStack_frame {mem0 : Nat → Nat} (apart : reloc.Apart sp)
    {floor link : Nat} {frames : List Nat} (chain : reloc.TrapChain mem0 floor link frames) :
    ∀ {t fuel : Nat} {dom dom' : Domain} {mem mem' : Nat → Nat} {moved : List Nat},
      sp ≤ t → t < floor → t < reloc.oldHigh → mem0 t = link → (∀ x ∈ moved, x < t) →
      Relocated reloc sp mem0 moved mem →
      rewriteExceptionStack reloc fuel (.frame (reloc.move t)) dom mem = some (dom', mem') →
      (∃ moved', Relocated reloc sp mem0 moved' mem' ∧
        ∀ x, x ∈ moved' ↔ x ∈ moved ∨ x ∈ (t :: frames).dropLast) ∧
      dom' = { dom with asyncExnHandler := reloc.moveAt frames dom.asyncExnHandler } := by
  induction chain with
  | @leave floor link outside =>
      intro t fuel dom dom' mem mem' moved live before below linked earlier rel ran
      cases fuel with
      | zero => cases ran
      | succ fuel =>
          have read : mem (reloc.move t) = link := by
            rw [rel.read_fresh live below fun held => by have := earlier t held; omega, linked]
          simp only [rewriteExceptionStack, ExnSlot.read, read] at ran
          rw [if_neg outside] at ran
          obtain ⟨rfl, rfl⟩ := Prod.mk.inj (Option.some.inj ran)
          exact ⟨⟨moved, rel, by simp⟩, by simp [moveAt]⟩
  | @frame floor link frames atLeast below rest ih =>
      intro t fuel dom dom' mem mem' moved live before belowT linked earlier rel ran
      cases fuel with
      | zero => cases ran
      | succ fuel =>
          have read : mem (reloc.move t) = link := by
            rw [rel.read_fresh live belowT fun held => by have := earlier t held; omega, linked]
          have inside : reloc.oldBase < link ∧ link ≤ reloc.oldHigh :=
            ⟨by have := apart.base_lt; omega, by omega⟩
          simp only [rewriteExceptionStack, ExnSlot.read, read, if_pos inside, move_eq_sub] at ran
          have written := rel.write apart live belowT (by omega) (by omega)
          rw [linked] at written
          obtain ⟨⟨moved', rel', members⟩, domain⟩ := ih (by omega) (Nat.lt_succ_self link) below rfl
            (fun x held => by
              rcases List.mem_cons.mp held with rfl | older
              · omega
              · have := earlier x older
                omega) written ran
          refine ⟨⟨moved', rel', fun x => ?_⟩, ?_⟩
          · rw [members x, List.dropLast_cons₂]
            simp only [List.mem_cons, or_assoc, or_left_comm]
          · rw [domain, ← moveAt_cons (apart.move_not_mem rest (by omega) (by omega) below)]
            split <;> rfl

theorem rewriteExceptionStack_state {mem0 mem mem' : Nat → Nat} (apart : reloc.Apart sp)
    {dom dom' : Domain} {fuel : Nat} {frames : List Nat}
    (chain : reloc.TrapChain mem0 sp dom.exnHandler frames) (rel : Relocated reloc sp mem0 [] mem)
    (ran : rewriteExceptionStack reloc fuel .state dom mem = some (dom', mem')) :
    (∃ moved, Relocated reloc sp mem0 moved mem' ∧ ∀ x, x ∈ moved ↔ x ∈ frames.dropLast) ∧
    dom' = { dom with
      exnHandler := reloc.moveAt frames dom.exnHandler
      asyncExnHandler := reloc.moveAt frames dom.asyncExnHandler } := by
  cases fuel with
  | zero => cases ran
  | succ fuel =>
      cases chain with
      | leave outside =>
          simp only [rewriteExceptionStack, ExnSlot.read] at ran
          rw [if_neg outside] at ran
          obtain ⟨rfl, rfl⟩ := Prod.mk.inj (Option.some.inj ran)
          exact ⟨⟨[], rel, by simp⟩, by simp [moveAt]⟩
      | @frame _ _ tail atLeast below rest =>
          have inside : reloc.oldBase < dom.exnHandler ∧ dom.exnHandler ≤ reloc.oldHigh :=
            ⟨by have := apart.base_lt; omega, by omega⟩
          simp only [rewriteExceptionStack, ExnSlot.read, if_pos inside, move_eq_sub] at ran
          obtain ⟨⟨moved, rel', members⟩, domain⟩ := rewriteExceptionStack_frame apart rest atLeast
            (Nat.lt_succ_self _) below rfl (fun _ held => by cases held) rel ran
          refine ⟨⟨moved, rel', fun x => by simpa using members x⟩, ?_⟩
          have first : reloc.moveAt (dom.exnHandler :: tail) dom.exnHandler =
              reloc.move dom.exnHandler := if_pos (List.mem_cons_self _ _)
          rw [domain, first,
            ← moveAt_cons (apart.move_not_mem rest (by omega) atLeast below) dom.asyncExnHandler]
          split <;> rfl

/-! ## The saved frame pointers -/

theorem rewriteFramePointers_held {mem0 mem mem' : Nat → Nat} (apart : reloc.Apart sp)
    {floor link start fuel : Nat} {frames moved : List Nat}
    (chain : reloc.FrameChain mem0 floor link frames) (rel : Relocated reloc sp mem0 moved mem)
    (closed : ClosedBut sp reloc.oldHigh mem0 moved start) (held : start ∈ moved)
    (before : start < floor) (linked : mem0 start = link)
    (ran : rewriteFramePointers reloc fuel (reloc.move start) mem = some mem') :
    ∃ moved', Relocated reloc sp mem0 moved' mem' ∧ Closed sp reloc.oldHigh mem0 moved' ∧
      ∀ x, x ∈ moved' ↔ x ∈ moved ∨ x ∈ (start :: frames).dropLast := by
  cases fuel with
  | zero => cases ran
  | succ fuel =>
      obtain ⟨live, -, low, high⟩ := rel.slots start held
      have := apart.move_out low high
      have := apart.base_lt
      simp only [rewriteFramePointers, rel.read_moved held] at ran
      rw [if_neg (by omega)] at ran
      cases ran
      refine ⟨moved, rel, closed.closed held, fun x => ⟨.inl, fun found => found.elim id ?_⟩⟩
      exact chain.covers (closed.closed held) held live before linked x

theorem rewriteFramePointers_frame {mem0 : Nat → Nat} (apart : reloc.Apart sp)
    {floor link : Nat} {frames : List Nat} (chain : reloc.FrameChain mem0 floor link frames) :
    ∀ {start fuel : Nat} {mem mem' : Nat → Nat} {moved : List Nat},
      sp ≤ start → start < floor → start < reloc.oldHigh → mem0 start = link →
      Relocated reloc sp mem0 moved mem → ClosedBut sp reloc.oldHigh mem0 moved start →
      rewriteFramePointers reloc fuel (reloc.move start) mem = some mem' →
      ∃ moved', Relocated reloc sp mem0 moved' mem' ∧ Closed sp reloc.oldHigh mem0 moved' ∧
        ∀ x, x ∈ moved' ↔ x ∈ moved ∨ x ∈ (start :: frames).dropLast := by
  induction chain with
  | @leave floor link outside =>
      intro start fuel mem mem' moved live before below linked rel closed ran
      by_cases held : start ∈ moved
      · exact rewriteFramePointers_held apart (.leave outside) rel closed held before linked ran
      cases fuel with
      | zero => cases ran
      | succ fuel =>
          simp only [rewriteFramePointers, rel.read_fresh live below held, linked] at ran
          rw [if_neg outside] at ran
          cases ran
          refine ⟨moved, rel, fun x held' low high => ?_, by simp⟩
          refine (closed x held' low high).elim id fun pending => absurd ?_ outside
          have := apart.base_lt
          rw [pending, linked] at low high
          exact ⟨by omega, high⟩
  | @frame floor link frames atLeast below rest ih =>
      intro start fuel mem mem' moved live before belowStart linked rel closed ran
      by_cases held : start ∈ moved
      · exact rewriteFramePointers_held apart (.frame atLeast below rest) rel closed held before
          linked ran
      cases fuel with
      | zero => cases ran
      | succ fuel =>
          have inside : reloc.oldBase ≤ link ∧ link < reloc.oldHigh :=
            ⟨by have := apart.base_lt; omega, below⟩
          simp only [rewriteFramePointers, rel.read_fresh live belowStart held, linked,
            if_pos inside] at ran
          have written := rel.write apart live belowStart (by omega) (by omega)
          rw [linked] at written
          obtain ⟨moved', rel', closed', members⟩ := ih (by omega) (Nat.lt_succ_self link) below rfl
            written (fun x held' low high => by
              rcases List.mem_cons.mp held' with rfl | older
              · exact .inr linked
              · exact .inl ((closed x older low high).elim (List.mem_cons_of_mem _)
                  fun pending => pending ▸ List.mem_cons_self _ _)) ran
          refine ⟨moved', rel', closed', fun x => ?_⟩
          rw [members x, List.dropLast_cons₂]
          simp only [List.mem_cons, or_assoc, or_left_comm]

/-! ## The `c_stack` links -/

theorem rewriteCStackLink_spec {env : Env} {mem0 mem mem' : Nat → Nat} (apart : reloc.Apart sp)
    {oldStack newStack fuel : Nat} {link link' : CStackLink} {frames moved : List Nat}
    (chain : link.stack = oldStack → env.withFramePointers = true →
      reloc.FrameChain mem0 sp link.framePrev frames)
    (rel : Relocated reloc sp mem0 moved mem) (closed : Closed sp reloc.oldHigh mem0 moved)
    (ran : rewriteCStackLink env reloc oldStack newStack fuel link mem = some (link', mem')) :
    link' = link.relocate env reloc oldStack newStack ∧
    ∃ moved', Relocated reloc sp mem0 moved' mem' ∧ Closed sp reloc.oldHigh mem0 moved' ∧
      ∀ x, x ∈ moved' ↔ x ∈ moved ∨
        (link.stack = oldStack ∧ env.withFramePointers = true ∧ x ∈ frames.dropLast) := by
  unfold rewriteCStackLink at ran
  obtain ⟨⟨framedLink, framedMem⟩, framed, done⟩ := Option.map_eq_some'.mp ran
  obtain ⟨rfl, rfl⟩ := Prod.mk.inj done
  by_cases onOld : link.stack = oldStack
  · rw [if_pos onOld] at framed
    obtain ⟨⟨prevLink, prevMem⟩, prev, moveLink⟩ := Option.map_eq_some'.mp framed
    obtain ⟨rfl, rfl⟩ := Prod.mk.inj moveLink
    by_cases follow : env.withFramePointers = true ∧ reloc.oldBase ≤ link.framePrev ∧
        link.framePrev < reloc.oldHigh
    · rw [if_pos follow] at prev
      obtain ⟨loopMem, loop, prevDone⟩ := Option.map_eq_some'.mp prev
      obtain ⟨rfl, rfl⟩ := Prod.mk.inj prevDone
      cases chain onOld follow.1 with
      | leave outside => exact absurd follow.2 outside
      | @frame _ _ rest atLeast below restChain =>
          obtain ⟨moved', rel', closed', members⟩ := rewriteFramePointers_frame apart restChain
            atLeast (Nat.lt_succ_self _) below rfl rel (closed.closedBut _) loop
          refine ⟨?_, moved', rel', closed', fun x => by simp [members x, onOld, follow.1]⟩
          simp only [CStackLink.relocate, onOld, follow, and_self, if_true]
          split <;> rfl
    · rw [if_neg follow] at prev
      obtain ⟨rfl, rfl⟩ := Prod.mk.inj (Option.some.inj prev)
      refine ⟨?_, moved, rel, closed, fun x => ⟨.inl, fun found => found.elim id ?_⟩⟩
      · simp only [CStackLink.relocate, onOld, if_true, true_and, if_neg follow]
        split <;> rfl
      · rintro ⟨-, kept, member⟩
        cases chain onOld kept with
        | leave => cases member
        | frame atLeast below =>
            exact absurd ⟨kept, by have := apart.base_lt; omega, below⟩ follow
  · rw [if_neg onOld] at framed
    obtain ⟨rfl, rfl⟩ := Prod.mk.inj (Option.some.inj framed)
    refine ⟨?_, moved, rel, closed, fun x => by simp [onOld]⟩
    simp only [CStackLink.relocate, onOld, if_false, false_and]
    split <;> rfl

theorem rewriteCStack_spec {env : Env} {mem0 : Nat → Nat} (apart : reloc.Apart sp)
    {oldStack newStack fuel : Nat} (chainOf : CStackLink → List Nat) :
    ∀ {links links' : List CStackLink} {mem mem' : Nat → Nat} {moved : List Nat},
      (∀ link ∈ links, link.stack = oldStack → env.withFramePointers = true →
        reloc.FrameChain mem0 sp link.framePrev (chainOf link)) →
      Relocated reloc sp mem0 moved mem → Closed sp reloc.oldHigh mem0 moved →
      rewriteCStack env reloc oldStack newStack fuel links mem = some (links', mem') →
      links' = links.map (CStackLink.relocate env reloc oldStack newStack) ∧
      ∃ moved', Relocated reloc sp mem0 moved' mem' ∧ Closed sp reloc.oldHigh mem0 moved' ∧
        ∀ x, x ∈ moved' ↔ x ∈ moved ∨ ∃ link ∈ links, link.stack = oldStack ∧
          env.withFramePointers = true ∧ x ∈ (chainOf link).dropLast
  | [], links', mem, mem', moved, _, rel, closed, ran => by
      obtain ⟨rfl, rfl⟩ := Prod.mk.inj (Option.some.inj ran)
      exact ⟨rfl, moved, rel, closed, by simp⟩
  | link :: links, links', mem, mem', moved, chains, rel, closed, ran => by
      obtain ⟨⟨link₁, mem₁⟩, first, later⟩ := Option.bind_eq_some.mp ran
      obtain ⟨⟨rest, mem₂⟩, restRan, done⟩ := Option.map_eq_some'.mp later
      obtain ⟨rfl, rfl⟩ := Prod.mk.inj done
      obtain ⟨rfl, moved₁, rel₁, closed₁, members₁⟩ :=
        rewriteCStackLink_spec apart (chains link (List.mem_cons_self _ _)) rel closed first
      obtain ⟨rfl, moved₂, rel₂, closed₂, members₂⟩ := rewriteCStack_spec apart chainOf
        (fun other member => chains other (List.mem_cons_of_mem _ member)) rel₁ closed₁ restRan
      refine ⟨rfl, moved₂, rel₂, closed₂, fun x => ?_⟩
      rw [members₂, members₁]
      simp only [List.mem_cons, exists_eq_or_imp, or_assoc]

theorem rewritePointers_spec {env : Env} {mem0 mem mem' : Nat → Nat} (apart : reloc.Apart sp)
    (native : env.nativeCode = true) {oldStack newStack fuel : Nat} {dom dom' : Domain}
    {trapFrames : List Nat} (chainOf : CStackLink → List Nat)
    (trap : reloc.TrapChain mem0 sp dom.exnHandler trapFrames)
    (frames : ∀ link ∈ dom.cStack, link.stack = oldStack → env.withFramePointers = true →
      reloc.FrameChain mem0 sp link.framePrev (chainOf link))
    (copied : Relocated reloc sp mem0 [] mem)
    (ran : rewritePointers env reloc oldStack newStack fuel dom mem = some (dom', mem')) :
    dom' = { dom with
      exnHandler := reloc.moveAt trapFrames dom.exnHandler
      asyncExnHandler := reloc.moveAt trapFrames dom.asyncExnHandler
      cStack := dom.cStack.map (CStackLink.relocate env reloc oldStack newStack) } ∧
    ∃ moved, Relocated reloc sp mem0 moved mem' ∧ ∀ x, x ∈ moved ↔
      (x ∈ trapFrames ∨ ∃ link ∈ dom.cStack, link.stack = oldStack ∧
        env.withFramePointers = true ∧ x ∈ chainOf link) ∧ sp ≤ mem0 x ∧ mem0 x < reloc.oldHigh := by
  have := apart.base_lt
  have trapSub : ∀ y, sp ≤ y → y < reloc.oldHigh → reloc.oldBase < y ∧ y ≤ reloc.oldHigh :=
    fun y low high => ⟨by omega, by omega⟩
  have frameSub : ∀ y, sp ≤ y → y < reloc.oldHigh → reloc.oldBase ≤ y ∧ y < reloc.oldHigh :=
    fun y low high => ⟨by omega, high⟩
  unfold rewritePointers at ran
  rw [if_pos native] at ran
  obtain ⟨⟨dom₁, mem₁⟩, exn, links⟩ := Option.bind_eq_some.mp ran
  obtain ⟨⟨cStack, mem₂⟩, linksRan, done⟩ := Option.map_eq_some'.mp links
  obtain ⟨rfl, rfl⟩ := Prod.mk.inj done
  obtain ⟨⟨moved₁, rel₁, members₁⟩, rfl⟩ := rewriteExceptionStack_state apart trap copied exn
  have closed₁ : Closed sp reloc.oldHigh mem0 moved₁ := fun x held low high =>
    (members₁ _).mpr (trap.closed_dropLast trapSub (Nat.le_refl sp) x ((members₁ x).mp held)
      low high)
  obtain ⟨rfl, moved₂, rel₂, -, members₂⟩ := rewriteCStack_spec apart chainOf frames rel₁ closed₁
    linksRan
  refine ⟨rfl, moved₂, rel₂, fun x => ?_⟩
  rw [members₂, members₁, trap.mem_dropLast trapSub (Nat.le_refl sp)]
  constructor
  · rintro (⟨member, live⟩ | ⟨link, listed, onOld, kept, member⟩)
    · exact ⟨.inl member, live⟩
    · obtain ⟨member, live⟩ :=
        ((frames link listed onOld kept).mem_dropLast frameSub (Nat.le_refl sp) x).mp member
      exact ⟨.inr ⟨link, listed, onOld, kept, member⟩, live⟩
  · rintro ⟨member | ⟨link, listed, onOld, kept, member⟩, live⟩
    · exact .inl ⟨member, live⟩
    · exact .inr ⟨link, listed, onOld, kept,
        ((frames link listed onOld kept).mem_dropLast frameSub (Nat.le_refl sp) x).mpr
          ⟨member, live⟩⟩

theorem rewritePointers_bytecode {env : Env} {mem0 mem mem' : Nat → Nat} (apart : reloc.Apart sp)
    (bytecode : env.nativeCode = false) {oldStack newStack fuel : Nat} {dom dom' : Domain}
    (unframed : ∀ link ∈ dom.cStack, link.stack = oldStack → env.withFramePointers = false)
    (copied : Relocated reloc sp mem0 [] mem)
    (ran : rewritePointers env reloc oldStack newStack fuel dom mem = some (dom', mem')) :
    dom' = { dom with cStack := dom.cStack.map (CStackLink.relocate env reloc oldStack newStack) } ∧
      Relocated reloc sp mem0 [] mem' := by
  unfold rewritePointers at ran
  simp only [bytecode, Bool.false_eq_true, if_false, Option.some_bind] at ran
  obtain ⟨⟨cStack, mem₁⟩, linksRan, done⟩ := Option.map_eq_some'.mp ran
  obtain ⟨rfl, rfl⟩ := Prod.mk.inj done
  obtain ⟨rfl, moved, rel, -, members⟩ := rewriteCStack_spec apart (fun _ => [])
    (fun link listed onOld kept => absurd kept (by simp [unframed link listed onOld])) copied
    (fun x held => absurd held (List.not_mem_nil x)) linksRan
  have none : moved = [] := List.eq_nil_iff_forall_not_mem.mpr fun x held => by
    simpa using (members x).mp held
  exact ⟨rfl, none ▸ rel⟩

end Relocation

end FiberRuntime
