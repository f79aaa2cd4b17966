import SparseProduct.Proofs.Window

/-!
# Looking up one column after another

While a column of B is folded in, its window is asked to look up columns and to drop what lies beyond a
bound. If the columns looked up never decrease, and no bound lies below a column looked up later, a window
that is shared by all requests answers as one that is opened again for each of them. It only ever shrinks,
and dropping takes from it the slots beyond the bound and no others.
-/

namespace SparseProduct

namespace Window

inductive Request where
  | locate (column : Nat)
  | dropAfter (bound : Nat)
deriving DecidableEq, Repr

namespace Request

/-- The request may come before the other one: no column is looked up after a larger one, or after a
bound below it. -/
def Allows : Request → Request → Prop
  | locate column, locate later => column ≤ later
  | dropAfter bound, locate later => later ≤ bound
  | _, dropAfter _ => True

instance : DecidableRel Allows := fun request later => by
  cases request <;> cases later <;> unfold Allows <;> infer_instance

/-- The slot that is asked for, if the list has it. -/
def answer (ids : Array Nat) : Request → Option Nat
  | locate column => (Search.find ids column).index?
  | dropAfter _ => none

end Request

/-- A request that was carried out: the windows before and after it, and the slot that was found. -/
structure Step where
  request : Request
  before : Window
  answer : Option Nat
  after : Window
deriving DecidableEq, Repr

/-- Carries out a request. Dropping finds no slot. -/
def perform (w : Window) (ids : Array Nat) : Request → Result (Option Nat × Window)
  | .locate column => w.locate ids column
  | .dropAfter bound => do
      return (none, ← w.dropAfter ids bound)

/-- Carries out requests, each on the window that the one before it left. -/
def performAll (w : Window) (ids : Array Nat) : List Request → Result (List Step)
  | [] => .ok []
  | request :: requests => do
      let (answer, after) ← w.perform ids request
      return ⟨request, w, answer, after⟩ :: (← after.performAll ids requests)

structure Inside (w : Window) (ids : Array Nat) : Prop where
  left_le : w.left ≤ w.right
  right_le : w.right ≤ ids.size

/-- The step finds the slot that is asked for, leaves a part of the list and of the window before, and
drops exactly the slots it is asked to drop. -/
structure Step.Sound (ids : Array Nat) (step : Step) : Prop where
  found : ∀ column, step.request = .locate column →
    ∀ slot, step.answer = some slot ↔ ids[slot]? = some column
  inside : step.after.Inside ids
  shrinks : step.before.left ≤ step.after.left ∧ step.after.right ≤ step.before.right
  dropped : ∀ bound, step.request = .dropAfter bound → ∀ slot column, ids[slot]? = some column →
    (slot ∈ step.after.span.positions ↔ slot ∈ step.before.span.positions ∧ column ≤ bound)

variable {ids : Array Nat} {w after : Window}

theorem opened_of_trimmed (h : w.mode = .trimmed) : w.opened = w := by
  rw [opened, h]

theorem opened_of_fullRange (h : w.mode = .fullRange) : w.opened = w.reset := by
  rw [opened, h]

theorem inside_reset (h : w.length = ids.size) : w.reset.Inside ids where
  left_le := Nat.zero_le _
  right_le := Nat.le_of_eq h

theorem locate_advances (hright : w.opened.right ≤ ids.size) {column : Nat} {answer : Option Nat}
    (h : w.locate ids column = .ok (answer, after)) :
    ∃ offset ≤ w.opened.right - w.opened.left, after = w.opened.advance offset := by
  unfold locate at h
  generalize w.opened = v at h hright
  simp only at h
  by_cases hempty : v.right ≤ v.left
  · rw [if_pos hempty] at h
    cases h
    exact ⟨0, Nat.zero_le _, rfl⟩
  · have hbelow := Search.below_find_le (ids.extract v.left v.right) column
    rw [size_cut hright] at hbelow
    rw [if_neg hempty, Span.cut_of_le (Nat.le_of_not_le hempty) hright, Result.ok_bind] at h
    simp only [span] at h
    cases hfind : Search.find (ids.extract v.left v.right) column with
    | found offset =>
      rw [hfind] at h hbelow
      cases h
      exact ⟨offset, hbelow, rfl⟩
    | absent offset =>
      rw [hfind] at h hbelow
      cases h
      exact ⟨offset, hbelow, rfl⟩

theorem dropAfter_shrinks (inc : ids.toList.Pairwise (· < ·)) (hmode : w.mode = .trimmed)
    (inside : w.Inside ids) {bound : Nat} (h : w.dropAfter ids bound = .ok after) :
    after.left = w.left ∧ after.left ≤ after.right ∧ after.right ≤ w.right ∧ after.mode = w.mode ∧
      ∀ slot column : Nat, ids[slot]? = some column →
        (slot ∈ after.span.positions ↔ slot ∈ w.span.positions ∧ column ≤ bound) := by
  have hleft := inside.left_le
  have hright := inside.right_le
  unfold dropAfter at h
  by_cases hempty : w.right ≤ w.left
  · rw [if_pos (Or.inr hempty)] at h
    cases h
    refine ⟨rfl, hleft, Nat.le_refl _, rfl, fun slot column _ => ?_⟩
    simp only [Span.mem_positions, span]
    omega
  · have hlast : w.right - 1 < ids.size := by omega
    rw [if_neg (by simp [hmode, hempty]), fetch_of_lt hlast, Result.ok_bind] at h
    by_cases hkeep : ids[w.right - 1] ≤ bound
    · rw [if_pos hkeep] at h
      cases h
      refine ⟨rfl, hleft, Nat.le_refl _, rfl, fun slot column hslot => ?_⟩
      -- the last slot of the window is within the bound, and so are those before it
      refine ⟨fun hin => ⟨hin, ?_⟩, fun hin => hin.1⟩
      obtain ⟨hlt, rfl⟩ := Array.getElem?_eq_some_iff.1 hslot
      have hin := Span.mem_positions.1 hin
      simp only [span] at hin
      have := Search.getElem_le_getElem inc (show slot ≤ w.right - 1 by omega) hlast
      omega
    · rw [if_neg hkeep, Span.cut_of_le hleft hright, Result.ok_bind] at h
      cases h
      have hcount := Search.countWhile_le (ids.extract w.left w.right) (· ≤ bound)
      rw [size_cut hright] at hcount
      refine ⟨rfl, Nat.le_add_right _ _, ?_, rfl, fun slot column hslot => ?_⟩
      · show w.left + Search.countWhile (ids.extract w.left w.right) (· ≤ bound) ≤ w.right
        omega
      · simp only [Span.mem_positions, span]
        by_cases hin : w.left ≤ slot ∧ slot < w.right
        · have hget := getElem?_cut hright (i := slot - w.left) (by omega)
          rw [show w.left + (slot - w.left) = slot by omega, hslot] at hget
          obtain ⟨hlt, hval⟩ := Array.getElem?_eq_some_iff.1 hget
          have hiff := Search.lt_countWhile_le_iff (increasing_cut (w := w) inc) bound hlt
          rw [hval] at hiff
          omega
        · omega

/-- A shared window carries out a request for a column that it shows, and keeps showing the columns that
may be looked up later. -/
theorem perform_trimmed (inc : ids.toList.Pairwise (· < ·)) (hlen : w.length = ids.size)
    (hmode : w.mode = .trimmed) (inside : w.Inside ids) {request : Request}
    (shows : ∀ column, request = .locate column → w.Shows ids column) :
    ∃ after, w.perform ids request = .ok (request.answer ids, after) ∧
      (Step.mk request w (request.answer ids) after).Sound ids ∧
      after.length = w.length ∧ after.mode = w.mode ∧
      ∀ later, request.Allows (.locate later) → w.Shows ids later → after.Shows ids later := by
  cases request with
  | locate column =>
    have hshows := shows column rfl
    rw [← opened_of_trimmed hmode] at hshows
    obtain ⟨after, hrun, hlength, hlater⟩ := locate_eq inc hlen hshows
    obtain ⟨offset, hoffset, rfl⟩ := locate_advances hshows.right_le hrun
    rw [opened_of_trimmed hmode] at hoffset hrun hlater
    have hle := inside.left_le
    refine ⟨w.advance offset, hrun, ⟨?_, ⟨?_, inside.right_le⟩, ⟨Nat.le_add_right _ _, Nat.le_refl _⟩,
      ?_⟩, rfl, rfl, ?_⟩
    · intro column' hcolumn slot
      cases hcolumn
      exact Search.index?_find_eq_some_iff inc
    · show w.left + offset ≤ w.right
      omega
    · intro bound hbound
      cases hbound
    · intro later hallows hl
      rw [← opened_of_trimmed (w := w.advance offset) hmode]
      exact hlater later hallows hl
  | dropAfter bound =>
    obtain ⟨after, hrun, hlength, hlater⟩ := dropAfter_eq inc inside.right_le bound
    obtain ⟨hleft, hle, hright, hsame, hdropped⟩ := dropAfter_shrinks inc hmode inside hrun
    refine ⟨after, ?_, ⟨?_, ⟨hle, Nat.le_trans hright inside.right_le⟩,
      ⟨Nat.le_of_eq hleft.symm, hright⟩, ?_⟩, hlength, hsame, hlater⟩
    · rw [perform, hrun]
      rfl
    · intro column hcolumn
      cases hcolumn
    · intro bound' hbound
      cases hbound
      exact hdropped

theorem perform_fullRange (inc : ids.toList.Pairwise (· < ·)) (hlen : w.length = ids.size)
    (hmode : w.mode = .fullRange) (request : Request) :
    ∃ after, w.perform ids request = .ok (request.answer ids, after) ∧
      after.length = w.length ∧ after.mode = w.mode := by
  cases request with
  | locate column =>
    have hshows : w.opened.Shows ids column := by
      rw [opened_of_fullRange hmode]
      exact shows_reset hlen column
    obtain ⟨after, hrun, hlength, -⟩ := locate_eq inc hlen hshows
    obtain ⟨offset, -, rfl⟩ := locate_advances hshows.right_le hrun
    rw [opened_of_fullRange hmode] at hrun
    exact ⟨w.reset.advance offset, hrun, rfl, rfl⟩
  | dropAfter bound =>
    refine ⟨w, ?_, rfl, rfl⟩
    rw [perform, dropAfter, if_pos (Or.inl hmode)]
    rfl

theorem performAll_cons {answer : Option Nat} (request : Request) (requests : List Request)
    (h : w.perform ids request = .ok (answer, after)) :
    w.performAll ids (request :: requests) =
      (after.performAll ids requests >>= fun steps =>
        .ok (⟨request, w, answer, after⟩ :: steps)) := by
  rw [performAll, h, Result.ok_bind]
  rfl

theorem performAll_trimmed (inc : ids.toList.Pairwise (· < ·)) (hlen : w.length = ids.size)
    (hmode : w.mode = .trimmed) (inside : w.Inside ids) {requests : List Request}
    (ordered : requests.Pairwise Request.Allows)
    (shows : ∀ column, .locate column ∈ requests → w.Shows ids column) :
    ∃ steps, w.performAll ids requests = .ok steps ∧
      steps.map (fun step => (step.request, step.answer)) =
        requests.map (fun request => (request, request.answer ids)) ∧
      ∀ step ∈ steps, step.Sound ids := by
  induction requests generalizing w with
  | nil => exact ⟨[], rfl, rfl, nofun⟩
  | cons request requests ih =>
    obtain ⟨hfirst, hrest⟩ := List.pairwise_cons.1 ordered
    obtain ⟨after, hrun, hsound, hlength, hsame, hlater⟩ := perform_trimmed inc hlen hmode inside
      fun column hcolumn => shows column (hcolumn ▸ List.mem_cons_self)
    obtain ⟨steps, hsteps, hanswers, hall⟩ := ih (hlength.trans hlen) (hsame.trans hmode) hsound.inside
      hrest fun column hcolumn =>
        hlater column (hfirst _ hcolumn) (shows column (List.mem_cons_of_mem _ hcolumn))
    refine ⟨⟨request, w, request.answer ids, after⟩ :: steps, ?_, ?_, ?_⟩
    · rw [performAll_cons request requests hrun, hsteps, Result.ok_bind]
    · rw [List.map_cons, List.map_cons, hanswers]
    · intro step hstep
      rcases List.mem_cons.1 hstep with rfl | hstep
      · exact hsound
      · exact hall step hstep

theorem performAll_fullRange (inc : ids.toList.Pairwise (· < ·)) (hlen : w.length = ids.size)
    (hmode : w.mode = .fullRange) (requests : List Request) :
    ∃ steps, w.performAll ids requests = .ok steps ∧
      steps.map (·.answer) = requests.map (·.answer ids) := by
  induction requests generalizing w with
  | nil => exact ⟨[], rfl, rfl⟩
  | cons request requests ih =>
    obtain ⟨after, hrun, hlength, hsame⟩ := perform_fullRange inc hlen hmode request
    obtain ⟨steps, hsteps, hanswers⟩ := ih (hlength.trans hlen) (hsame.trans hmode)
    refine ⟨⟨request, w, request.answer ids, after⟩ :: steps, ?_, ?_⟩
    · rw [performAll_cons request requests hrun, hsteps, Result.ok_bind]
    · rw [List.map_cons, List.map_cons, hanswers]

/-- From a reset on, a shared window carries out requests in an allowed order soundly: it finds exactly
the slots of the columns asked for, as a window does that is opened again for every request, and it shrinks
by what it is asked to drop. -/
theorem performAll_of_ordered (inc : ids.toList.Pairwise (· < ·)) {shared full : Window}
    (hshared : shared.length = ids.size) (htrimmed : shared.mode = .trimmed)
    (hfull : full.length = ids.size) (hfullRange : full.mode = .fullRange) {requests : List Request}
    (ordered : requests.Pairwise Request.Allows) :
    ∃ steps fullSteps, shared.reset.performAll ids requests = .ok steps ∧
      full.reset.performAll ids requests = .ok fullSteps ∧
      steps.map (·.request) = requests ∧ steps.map (·.answer) = fullSteps.map (·.answer) ∧
      ∀ step ∈ steps, step.Sound ids := by
  obtain ⟨steps, hsteps, hanswers, hsound⟩ := performAll_trimmed (w := shared.reset) inc hshared htrimmed
    (inside_reset hshared) ordered fun column _ => shows_reset hshared column
  obtain ⟨fullSteps, hfullSteps, hfullAnswers⟩ :=
    performAll_fullRange (w := full.reset) inc hfull hfullRange requests
  refine ⟨steps, fullSteps, hsteps, hfullSteps, ?_, ?_, hsound⟩
  · simpa only [List.map_map, Function.comp_def, List.map_id'] using congrArg (List.map Prod.fst) hanswers
  · rw [hfullAnswers]
    simpa only [List.map_map, Function.comp_def] using congrArg (List.map Prod.snd) hanswers

/-- The window starts out at its end. The bounds drop two slots and then one, column 10 is not in the list,
and column 14 is looked up twice. -/
theorem performAll_of_ordered_six :
    ∃ steps, (Window.mk 6 6 6 .trimmed).reset.performAll #[2, 5, 9, 14, 20, 31]
        [.dropAfter 19, .locate 5, .locate 10, .dropAfter 14, .locate 14, .locate 14] = .ok steps ∧
      steps.map (·.answer) = [none, some 1, none, none, some 3, some 3] ∧
      ∀ step ∈ steps, step.Sound #[2, 5, 9, 14, 20, 31] := by
  obtain ⟨steps, fullSteps, hsteps, hfullSteps, -, hanswers, hsound⟩ :=
    @performAll_of_ordered #[2, 5, 9, 14, 20, 31] (by decide) ⟨6, 6, 6, .trimmed⟩ ⟨0, 0, 6, .fullRange⟩
      rfl rfl rfl rfl [.dropAfter 19, .locate 5, .locate 10, .dropAfter 14, .locate 14, .locate 14]
      (by decide)
  have hfull : ((Window.mk 0 0 6 .fullRange).reset.performAll #[2, 5, 9, 14, 20, 31]
      [.dropAfter 19, .locate 5, .locate 10, .dropAfter 14, .locate 14, .locate 14]).map
      (List.map (·.answer)) = .ok [none, some 1, none, none, some 3, some 3] := by cbv
  rw [hfullSteps] at hfull
  exact ⟨steps, hsteps, hanswers.trans (Except.ok.inj hfull), hsound⟩

end Window

end SparseProduct
