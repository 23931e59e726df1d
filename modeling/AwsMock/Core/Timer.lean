import Mathlib.Data.List.Induction
import Mathlib.Order.Nat

/-!
# Timers

`Timer` with the loops that it detaches. A loop goes on by itself, so the calls on a timer and the loops
take their steps in any order. `Initialize`, `Run` and `Shutdown` are those of a derived class; `Run` is counted.
-/

namespace AwsMock

/-- Where a loop of `DoWork` is: at the condition of the loop, asleep for a second, or at its end. -/
inductive Place where
  | looking
  | sleeping
  | ended
  deriving DecidableEq

/-- A loop with its own `i`, how many seconds it has slept, and how often it has called `Run`. -/
structure Loop where
  place : Place := .looking
  i : Nat := 0
  seconds : Nat := 0
  runs : Nat := 0
  deriving DecidableEq

/-- The next step of a loop. -/
def Loop.doWork (timeout : Int) (stopRequested : Bool) (l : Loop) : Loop :=
  match l.place with
  | .looking => if stopRequested then { l with place := .ended } else { l with place := .sleeping }
  | .sleeping =>
    if stopRequested then { l with place := .ended }
    else if timeout ≤ l.i + 1 then
      { place := .looking, i := 0, seconds := l.seconds + 1, runs := l.runs + 1 }
    else { l with place := .looking, i := l.i + 1, seconds := l.seconds + 1 }
  | .ended => l

/-- A timer; all its loops share the state of its stop source. -/
structure Timer where
  timeout : Int := 0
  stopRequested : Bool := false
  loops : List Loop := []
  deriving DecidableEq

namespace Timer

/-- What a call on a timer does. -/
inductive Action where
  | setTimeout (timeout : Int)
  | detach
  | requestStop
  deriving DecidableEq

inductive Call where
  | start
  | startWith (timeout : Int)
  | restart
  | stop
  | setTimeout (timeout : Int)
  deriving DecidableEq

def Call.actions : Call → List Action
  | start => [.detach]
  | startWith timeout => [.setTimeout timeout, .detach]
  | restart => [.requestStop, .detach]
  | stop => [.requestStop]
  | setTimeout timeout => [.setTimeout timeout, .requestStop, .detach]

/-- An action of a call, or a step of the `j`-th loop. -/
inductive Event where
  | act (a : Action)
  | loop (j : Nat)

def Event.action? : Event → Option Action
  | act a => some a
  | loop _ => none

def act (t : Timer) : Action → Timer
  | .setTimeout timeout => { t with timeout := timeout }
  | .detach => { t with loops := t.loops ++ [{}] }
  | .requestStop => { t with stopRequested := true }

def step (t : Timer) : Event → Timer
  | .act a => t.act a
  | .loop j => { t with loops := t.loops.modify j (Loop.doWork t.timeout t.stopRequested) }

def run (events : List Event) (t : Timer) : Timer := events.foldl step t

/-! ### What the calls should come to -/

/-- The loops that have not ended. -/
def live (t : Timer) : Nat := t.loops.countP fun l => l.place ≠ .ended

/-- The seconds from one `Run` to the next. -/
def period (t : Timer) : Nat := if t.timeout ≤ 1 then 1 else t.timeout.toNat

/-- A stop that was requested has been noticed by all loops. -/
def Noticed (t : Timer) : Prop := t.stopRequested = true → ∀ l ∈ t.loops, l.place = .ended

/-- How many loops should run. -/
def expected (calls : List Call) : Nat :=
  match calls.getLast? with
  | none | some .stop => 0
  | _ => 1

/-- As many loops run as should, and each of them has called `Run` once in every period. -/
structure Kept (calls : List Call) (t : Timer) : Prop where
  live : t.live = expected calls
  once : ∀ l ∈ t.loops, l.place ≠ .ended → l.runs = l.seconds / t.period

/-- The calls and the loops in some order, from a new timer. -/
def Interleaves (calls : List Call) (events : List Event) : Prop :=
  events.filterMap Event.action? = calls.flatMap Call.actions

/-- The last call is a `Stop`, or the timer was started once and never stopped. -/
def StartedOnce (calls : List Call) : Prop :=
  calls = [] ∨ calls.getLast? = some .stop ∨ calls = [.start] ∨ ∃ timeout, calls = [.startWith timeout]

variable {t : Timer} {calls : List Call} {events : List Event} {timeout : Int}

/-! ### Runs -/

theorem run_append (events events' : List Event) (t : Timer) :
    run (events ++ events') t = run events' (run events t) := List.foldl_append

theorem run_concat (events : List Event) (e : Event) (t : Timer) : run (events ++ [e]) t = (run events t).step e := by
  rw [run_append]
  rfl

/-- The actions of a run, with those of its last event. -/
theorem filterMap_concat (events : List Event) (e : Event) : (events ++ [e]).filterMap Event.action? =
    events.filterMap Event.action? ++ e.action?.toList := by
  rw [List.filterMap_append]
  cases e <;> rfl

theorem mem_modify {l : Loop} {f : Loop → Loop} : ∀ {loops : List Loop} {j : Nat},
    l ∈ loops.modify j f → l ∈ loops ∨ ∃ l' ∈ loops, l = f l'
  | [], j, h => by simp at h
  | l' :: loops, 0, h => by
    rw [List.modify_zero_cons] at h
    rcases List.mem_cons.mp h with rfl | h
    · exact .inr ⟨l', List.mem_cons_self, rfl⟩
    · exact .inl (List.mem_cons_of_mem _ h)
  | l' :: loops, j + 1, h => by
    rw [List.modify_succ_cons] at h
    rcases List.mem_cons.mp h with rfl | h
    · exact .inl List.mem_cons_self
    · rcases mem_modify h with h | ⟨l'', h, hl⟩
      · exact .inl (List.mem_cons_of_mem _ h)
      · exact .inr ⟨l'', List.mem_cons_of_mem _ h, hl⟩

/-- A stop that was requested stays requested. -/
theorem stopRequested_run (timeout : Int) (events : List Event) : (run events { timeout := timeout }).stopRequested = true ↔
    .requestStop ∈ events.filterMap Event.action? := by
  induction events using List.reverseRecOn with
  | nil => simp [run]
  | append_singleton events e ih =>
    rw [run_concat, filterMap_concat, List.mem_append]
    rcases e with (timeout' | _ | _) | j
    · simpa [step, act, Event.action?] using ih
    · simpa [step, act, Event.action?] using ih
    · simp [step, act, Event.action?]
    · simpa [step, Event.action?] using ih

/-- Each start detaches a loop. -/
theorem length_loops (timeout : Int) (events : List Event) : (run events { timeout := timeout }).loops.length =
    (events.filterMap Event.action?).count .detach := by
  induction events using List.reverseRecOn with
  | nil => simp [run]
  | append_singleton events e ih =>
    rw [run_concat, filterMap_concat, List.count_append]
    rcases e with (timeout' | _ | _) | j
    · simpa [step, act, Event.action?] using ih
    · simpa [step, act, Event.action?] using ih
    · simpa [step, act, Event.action?] using ih
    · simpa [step, Event.action?] using ih

/-- A loop only ends because it is stopped. -/
theorem place_ne_ended (timeout : Int) (events : List Event)
    (hstop : (run events { timeout := timeout }).stopRequested = false) :
    ∀ l ∈ (run events { timeout := timeout }).loops, l.place ≠ .ended := by
  induction events using List.reverseRecOn with
  | nil => simp [run]
  | append_singleton events e ih =>
    rw [run_concat] at hstop ⊢
    rcases e with (timeout' | _ | _) | j
    · exact ih hstop
    · intro l hl
      rcases List.mem_append.mp hl with hl | hl
      · exact ih hstop l hl
      · rw [List.mem_singleton.mp hl]
        decide
    · cases hstop
    · intro l hl
      have hold := ih hstop
      rcases mem_modify hl with hl | ⟨l', hl', rfl⟩
      · exact hold l hl
      · change (run events _).stopRequested = false at hstop
        have hplace := hold l' hl'
        rw [hstop, Loop.doWork]
        split
        · simp
        · split_ifs <;> simp_all
        · next hended => exact absurd hended hplace

/-! ### The period of a loop -/

/-- The seconds that a loop has slept are its periods and its `i`. -/
def Counted (t : Timer) : Prop := ∀ l ∈ t.loops, l.seconds = t.period * l.runs + l.i ∧ l.i < t.period

theorem period_pos (t : Timer) : 0 < t.period := by
  unfold period
  split <;> omega

theorem doWork_counted {l : Loop} {stopRequested : Bool} (h : l.seconds = t.period * l.runs + l.i ∧ l.i < t.period) :
    (l.doWork t.timeout stopRequested).seconds = t.period * (l.doWork t.timeout stopRequested).runs +
      (l.doWork t.timeout stopRequested).i ∧ (l.doWork t.timeout stopRequested).i < t.period := by
  have hdue : ∀ n : Nat, t.timeout ≤ n + 1 ↔ t.period ≤ n + 1 := by
    intro n
    unfold period
    split <;> omega
  obtain ⟨hseconds, hi⟩ := h
  unfold Loop.doWork
  split
  · split_ifs <;> exact ⟨hseconds, hi⟩
  · split_ifs with hstop hover
    · exact ⟨hseconds, hi⟩
    · -- the period is over
      have hle := (hdue l.i).mp hover
      have hfull : l.i + 1 = t.period := by omega
      refine ⟨?_, Nat.zero_lt_of_lt hi⟩
      simp only
      rw [hseconds, Nat.mul_succ, Nat.add_assoc, hfull, Nat.add_zero]
    · have hlt := mt (hdue l.i).mpr hover
      refine ⟨?_, ?_⟩
      · simp only
        rw [hseconds, Nat.add_assoc]
      · simp only
        omega
  · exact ⟨hseconds, hi⟩

/-- The timeout is set before the timer is started, or not at all. -/
def TimeoutFirst (actions : List Action) : Prop :=
  actions.Pairwise fun a b => a = .detach → ∀ timeout, b ≠ .setTimeout timeout

theorem counted_run (timeout : Int) (events : List Event) (h : TimeoutFirst (events.filterMap Event.action?)) :
    (run events { timeout := timeout }).Counted := by
  induction events using List.reverseRecOn with
  | nil => simp [run, Counted]
  | append_singleton events e ih =>
    rw [filterMap_concat, TimeoutFirst, List.pairwise_append] at h
    obtain ⟨hbefore, -, hlast⟩ := h
    have hcounted := ih hbefore
    rw [run_concat]
    rcases e with (timeout' | _ | _) | j
    · -- there is no loop yet
      have hnone : (run events { timeout := timeout }).loops = [] := by
        rw [← List.length_eq_zero_iff, length_loops, List.count_eq_zero]
        intro hmem
        exact hlast _ hmem (.setTimeout timeout') List.mem_cons_self rfl timeout' rfl
      intro l hl
      rw [step, act, hnone] at hl
      cases hl
    · intro l hl
      rcases List.mem_append.mp hl with hl | hl
      · exact hcounted l hl
      · rw [List.mem_singleton.mp hl]
        exact ⟨rfl, period_pos _⟩
    · exact hcounted
    · intro l hl
      rcases mem_modify hl with hl | ⟨l', hl', rfl⟩
      · exact hcounted l hl
      · exact doWork_counted (hcounted l' hl')

/-! ### Stops that are noticed -/

theorem getElem?_modify_range {f : Loop → Loop} (loops : List Loop) (k : Nat) : ∀ n : Nat,
    ((List.range n).foldl (fun loops j => loops.modify j f) loops)[k]? =
      if k < n then loops[k]?.map f else loops[k]?
  | 0 => by simp
  | n + 1 => by
    rw [List.range_succ, List.foldl_append, List.foldl_cons, List.foldl_nil, List.getElem?_modify,
      getElem?_modify_range loops k n]
    rcases Nat.lt_trichotomy k n with hlt | rfl | hgt
    · simp [hlt, hlt.ne', Nat.lt_succ_of_lt hlt]
    · simp
    · have hle : ¬ k < n + 1 := by omega
      simp [hle, hgt.ne, hgt.le.not_gt]

/-- All loops take a step. -/
def lookAround (t : Timer) : List Event := (List.range t.loops.length).map .loop

theorem run_lookAround (t : Timer) :
    run t.lookAround t = { t with loops := t.loops.map (Loop.doWork t.timeout t.stopRequested) } := by
  have hfold : ∀ (js : List Nat) (loops : List Loop), run (js.map .loop) { t with loops := loops } =
      { t with loops := js.foldl (fun loops j => loops.modify j (Loop.doWork t.timeout t.stopRequested)) loops } := by
    intro js
    induction js with
    | nil => intro loops; rfl
    | cons j js ih => intro loops; exact ih _
  have hloops := hfold (List.range t.loops.length) t.loops
  rw [lookAround, hloops]
  congr 1
  refine List.ext_getElem? fun k => ?_
  rw [getElem?_modify_range, List.getElem?_map]
  split
  · rfl
  · next hk => simp [List.getElem?_eq_none (Nat.le_of_not_lt hk)]

theorem noticed_lookAround (hstop : t.stopRequested = true) :
    ∀ l ∈ (run t.lookAround t).loops, l.place = .ended := by
  intro l hl
  rw [run_lookAround, hstop] at hl
  obtain ⟨l', -, rfl⟩ := List.mem_map.mp hl
  unfold Loop.doWork
  split
  · simp
  · simp
  · next hended => exact hended

theorem filterMap_acts (actions : List Action) : (actions.map Event.act).filterMap Event.action? = actions := by
  rw [List.filterMap_map]
  exact List.filterMap_some

theorem filterMap_lookAround (t : Timer) : t.lookAround.filterMap Event.action? = [] := by
  rw [lookAround, List.filterMap_map, List.filterMap_eq_nil_iff]
  exact fun _ _ => rfl

/-! ### All orders of the calls and the loops -/

theorem live_eq_zero (h : ∀ l ∈ t.loops, l.place = .ended) : t.live = 0 := by
  rw [live, List.countP_eq_zero]
  intro l hl
  simp [h l hl]

theorem live_eq_length (h : ∀ l ∈ t.loops, l.place ≠ .ended) : t.live = t.loops.length := by
  rw [live, List.countP_eq_length]
  intro l hl
  simp [h l hl]

/-- Calls that request no stop each detach a loop. -/
theorem count_detach : ∀ {calls : List Call}, .requestStop ∉ calls.flatMap Call.actions →
    (calls.flatMap Call.actions).count .detach = calls.length
  | [], _ => rfl
  | c :: calls, h => by
    rw [List.flatMap_cons, List.mem_append, not_or] at h
    rw [List.flatMap_cons, List.count_append, count_detach h.2, List.length_cons]
    rcases c with _ | timeout | _ | _ | timeout
    · simp [Call.actions, Nat.add_comm]
    · simp [Call.actions, Nat.add_comm]
    · exact absurd (by simp [Call.actions]) h.1
    · exact absurd (by simp [Call.actions]) h.1
    · exact absurd (by simp [Call.actions]) h.1

theorem expected_stop (h : calls.getLast? = some .stop) : expected calls = 0 := by
  rw [expected, h]

theorem expected_other (hne : calls ≠ []) (h : calls.getLast? ≠ some .stop) : expected calls = 1 := by
  unfold expected
  split
  · next hnone => exact absurd (List.getLast?_eq_none_iff.mp hnone) hne
  · next hstop => exact absurd hstop h
  · rfl

/-- After the last call is a `Stop`, no loop runs. -/
theorem kept_stop (h : calls.getLast? = some .stop) (hrun : Interleaves calls events)
    (hnoticed : (run events { timeout := timeout }).Noticed) : (run events { timeout := timeout }).Kept calls := by
  have hmem : Call.stop ∈ calls := List.mem_of_getLast? h
  have hstop : (run events { timeout := timeout }).stopRequested = true := by
    rw [stopRequested_run, hrun]
    exact List.mem_flatMap.mpr ⟨.stop, hmem, List.mem_cons_self⟩
  have hended := hnoticed hstop
  exact ⟨by rw [live_eq_zero hended, expected_stop h], fun l hl hlive => absurd (hended l hl) hlive⟩

/-- A timer that is started once. -/
theorem kept_start (hlast : expected calls = 1) (hcount : (calls.flatMap Call.actions).count .detach = 1)
    (hstop : .requestStop ∉ calls.flatMap Call.actions) (hfirst : TimeoutFirst (calls.flatMap Call.actions))
    (hrun : Interleaves calls events) : (run events { timeout := timeout }).Kept calls := by
  have hrunning : (run events { timeout := timeout }).stopRequested = false := by
    rw [← Bool.not_eq_true, stopRequested_run, hrun]
    exact hstop
  refine ⟨?_, fun l hl _ => ?_⟩
  · rw [live_eq_length (place_ne_ended timeout events hrunning), length_loops, hrun, hcount, hlast]
  · obtain ⟨hseconds, hi⟩ := counted_run timeout events (by rwa [hrun]) l hl
    rw [hseconds, Nat.mul_add_div (Nat.zero_lt_of_lt hi), Nat.div_eq_of_lt hi, Nat.add_zero]

/-- In every order of the calls and the loops, the right loops run, exactly when the last call is a `Stop` or the
    timer was started once and never stopped. -/
theorem timer_loops_iff (timeout : Int) (calls : List Call) :
    (∀ events, Interleaves calls events → (run events { timeout := timeout }).Noticed →
      (run events { timeout := timeout }).Kept calls) ↔ StartedOnce calls := by
  constructor
  · intro hkept
    by_contra hnot
    simp only [StartedOnce, not_or, not_exists] at hnot
    obtain ⟨hne, hlast, hstart, hstartWith⟩ := hnot
    have hone := expected_other hne hlast
    -- the calls without a loop in between
    have hacts : Interleaves calls ((calls.flatMap Call.actions).map .act) := filterMap_acts _
    rcases hstop : (run ((calls.flatMap Call.actions).map .act) { timeout := timeout }).stopRequested with _ | _
    · -- each of the two or more starts has a loop
      have hnone : .requestStop ∉ calls.flatMap Call.actions := by
        rw [← hacts, ← stopRequested_run timeout, hstop]
        exact Bool.false_ne_true
      have hlive := (hkept _ hacts fun h => absurd (hstop.symm.trans h) Bool.false_ne_true).live
      rw [live_eq_length (place_ne_ended _ _ hstop), length_loops, hacts, count_detach hnone, hone] at hlive
      obtain ⟨c, rfl⟩ := List.length_eq_one_iff.mp hlive
      rcases c with _ | timeout' | _ | _ | timeout'
      · exact hstart rfl
      · exact hstartWith timeout' rfl
      · exact hnone (by simp [Call.actions])
      · exact hlast rfl
      · exact hnone (by simp [Call.actions])
    · -- no loop outlives the first stop
      have hended := noticed_lookAround hstop
      rw [← run_append] at hended
      have hall : Interleaves calls ((calls.flatMap Call.actions).map .act ++
          (run ((calls.flatMap Call.actions).map .act) { timeout := timeout }).lookAround) := by
        rw [Interleaves, List.filterMap_append, filterMap_lookAround, List.append_nil]
        exact hacts
      have hlive := (hkept _ hall fun _ => hended).live
      rw [live_eq_zero hended, hone] at hlive
      cases hlive
  · rintro (rfl | hstop | rfl | ⟨timeout', rfl⟩) events hrun hnoticed
    · have hnone : (run events { timeout := timeout }).loops = [] := by
        rw [← List.length_eq_zero_iff, length_loops, hrun]
        rfl
      exact ⟨by rw [live, hnone]; rfl, by rw [hnone]; exact nofun⟩
    · exact kept_stop hstop hrun hnoticed
    · exact kept_start rfl rfl (by decide) (by simp [TimeoutFirst, Call.actions]) hrun
    · exact kept_start rfl rfl (by simp [Call.actions]) (by simp [TimeoutFirst, Call.actions]) hrun

/-- A timer that was restarted has no loop, and one that was started twice has two. -/
theorem restarted_timer_idle :
    (¬ ∀ events, Interleaves [.start, .restart] events → (run events { timeout := 1 }).Noticed →
      (run events { timeout := 1 }).Kept [.start, .restart]) ∧
    (run [.act .detach, .loop 0, .act .requestStop, .act .detach, .loop 0, .loop 1] { timeout := 1 }).live = 0 ∧
    ¬ ∀ events, Interleaves [.start, .start] events → (run events { timeout := 1 }).Noticed →
      (run events { timeout := 1 }).Kept [.start, .start] := by
  refine ⟨fun h => ?_, rfl, fun h => ?_⟩
  · have hkept := h [.act .detach, .loop 0, .act .requestStop, .act .detach, .loop 0, .loop 1] rfl
      (fun _ => by decide)
    exact absurd hkept.live (by decide)
  · have hkept := h [.act .detach, .act .detach] rfl nofun
    exact absurd hkept.live (by decide)

end Timer

end AwsMock
