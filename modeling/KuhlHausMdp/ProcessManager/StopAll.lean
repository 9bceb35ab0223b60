import Mathlib
import KuhlHausMdp.ProcessManager.Lifecycle

/-! `stop_process` and `stop_all` while the processes go on, and what they leave
behind. -/

set_option autoImplicit false

namespace KuhlHausMdp.ProcessManager.Lifecycle

open Transition

namespace Manager

variable {m next : Manager}

structure Numbered (m : Manager) : Prop where
  registered : ∀ name i, m.processes.get name = some i → i < m.children.length
  joining : ∀ i names, m.call = .joining i names → i < m.children.length
  unique : ∀ name other i, m.processes.get name = some i → m.processes.get other = some i → name = other

theorem Numbered.step {action : Action} (numbered : m.Numbered) (one : m.step action = some next) : next.Numbered := by
  have longer := length_step one
  obtain ⟨registered, joining, unique⟩ := numbered
  have fits (name : String) (i : Nat) (found : m.processes.get name = some i) : i < next.children.length := by
    have before := registered name i found
    omega
  cases stepped one with
  | @started name starts =>
      constructor
      · intro other i found
        change (m.processes.set name m.children.length).get other = some i at found
        rw [Dict.get_set] at found
        split_ifs at found
        · cases found
          rw [longer]
          exact Nat.lt_succ_self _
        · exact fits other i found
      · intro i names called
        cases starts <;> cases called
      · intro first second i one other
        change (m.processes.set name m.children.length).get first = some i at one
        change (m.processes.set name m.children.length).get second = some i at other
        rw [Dict.get_set] at one other
        split_ifs at one other with here there there
        · exact here.trans there.symm
        · cases one
          exact absurd (registered second _ other) (Nat.lt_irrefl _)
        · cases other
          exact absurd (registered first _ one) (Nat.lt_irrefl _)
        · exact unique first second i one other
  | stopsOne | stopsAll | returned | skipped | joined =>
      exact ⟨registered, (fun i names called => by cases called), unique⟩
  | @signalled _ _ _ i c _ found _ =>
      refine ⟨fits, fun j names called => ?_, unique⟩
      simp only [signalShutdown] at called
      split_ifs at called
      cases called
      exact fits _ i found
  | killed => exact ⟨fits, (fun i names called => by cases called), unique⟩
  | moved =>
      refine ⟨fits, fun i names called => ?_, unique⟩
      rw [longer]
      exact joining i names called

theorem numbered_of_run {actions : List Action} (run : exec step actions fresh = some m) : m.Numbered := by
  apply exec_invariant Numbered (fun numbered one => numbered.step one) _ run
  constructor
  · intro name i found
    cases found
  · intro i names called
    cases called
  · intro first second i one
    cases one

/-- Without a call of its methods the manager keeps the names, every process
stays started or not, and what is told or dead stays so. -/
theorem kept_of_step {action : Action} (waits : action.calls = false) (one : m.step action = some next) :
    next.processes = m.processes ∧ ∀ (i : Nat) (c : Child), m.children[i]? = some c →
      ∃ after, next.children[i]? = some after ∧ after.started = c.started ∧
        (c.shutdownEvent = true → after.shutdownEvent = true) ∧
        (c.stage.alive = false → after.stage.alive = false) := by
  constructor
  · cases stepped one with
    | started | stopsOne | stopsAll => cases waits
    | returned | skipped | signalled | killed | joined | moved => rfl
  · intro i c at_
    have within : i < next.children.length := by
      rw [length_step one]
      exact Nat.lt_add_right _ (List.getElem?_eq_some_iff.mp at_).1
    obtain ⟨after, found⟩ : ∃ after, next.children[i]? = some after := ⟨_, List.getElem?_eq_getElem within⟩
    refine ⟨after, found, ?_⟩
    rcases child_of_step one found with ⟨before, same, moved⟩ | ⟨name, starts, rfl, -, -⟩
    · cases at_.symm.trans same
      cases moved with
      | still => exact ⟨rfl, id, id⟩
      | own one =>
          have kept := Child.kept_step one
          refine ⟨Child.started_step one, kept.1, fun dead => ?_⟩
          rw [dead] at kept
          cases kept.2
      | signalled => exact ⟨rfl, fun _ => rfl, id⟩
      | killed => exact ⟨rfl, id, fun _ => rfl⟩
    · cases waits

def Gone (m : Manager) (name : String) : Prop :=
  ∀ i, m.processes.get name = some i →
    ∃ c, m.children[i]? = some c ∧ c.started = true ∧ c.shutdownEvent = true ∧ c.stage.alive = false

theorem Gone.step {action : Action} {name : String} (gone : m.Gone name) (waits : action.calls = false)
    (one : m.step action = some next) : next.Gone name := by
  obtain ⟨same, kept⟩ := kept_of_step waits one
  intro i registered
  obtain ⟨c, at_, started, told, dead⟩ := gone i (same ▸ registered)
  obtain ⟨after, found, equal, event, stage⟩ := kept i c at_
  exact ⟨after, found, equal.trans started, event told, stage dead⟩

def Stopping (names : List String) (m : Manager) : Prop :=
  match m.call with
  | .stopping rest => ∃ past, names = past ++ rest ∧ ∀ name ∈ past, m.Gone name
  | .joining i rest => ∃ past name, names = past ++ name :: rest ∧ m.processes.get name = some i ∧
      (∃ c, m.children[i]? = some c ∧ c.started = true ∧ c.shutdownEvent = true) ∧ ∀ name ∈ past, m.Gone name
  | .returned => ∀ name ∈ names, m.Gone name
  | .raised => ∃ name ∈ names, ∃ i c, m.processes.get name = some i ∧ m.children[i]? = some c ∧ c.started = false

theorem gone_concat {past : List String} {name : String} (all : ∀ other ∈ past, m.Gone other) (last : m.Gone name) :
    ∀ other ∈ past ++ [name], m.Gone other := by
  intro other member
  rcases List.mem_append.mp member with old | new
  · exact all other old
  · rw [List.mem_singleton.mp new]
    exact last

theorem Stopping.step {action : Action} {names : List String} (stopping : Stopping names m)
    (waits : action.calls = false) (one : m.step action = some next) : Stopping names next := by
  have still {name : String} (gone : m.Gone name) : next.Gone name := gone.step waits one
  obtain ⟨-, kept⟩ := kept_of_step waits one
  cases stepped one with
  | started | stopsOne | stopsAll => cases waits
  | returned called =>
      simp only [Stopping, called] at stopping
      obtain ⟨past, rfl, all⟩ := stopping
      rw [List.append_nil]
      exact fun name member => still (all name member)
  | @skipped _ name rest called unknown =>
      simp only [Stopping, called] at stopping
      obtain ⟨past, rfl, all⟩ := stopping
      refine ⟨past ++ [name], by simp, gone_concat (fun other member => still (all other member)) ?_⟩
      intro i registered
      cases unknown.symm.trans registered
  | @signalled _ name rest i c called registered at_ =>
      simp only [Stopping, called] at stopping
      obtain ⟨past, rfl, all⟩ := stopping
      obtain ⟨after, found, started, -, -⟩ := kept i c at_
      have here : (m.signalShutdown i c rest).children[i]? = some { c with shutdownEvent := true } :=
        List.getElem?_set_self (List.getElem?_eq_some_iff.mp at_).1
      by_cases run : c.started = true
      · have call : (m.signalShutdown i c rest).call = .joining i rest := if_pos run
        simp only [Stopping, call]
        exact ⟨past, name, rfl, registered, ⟨_, here, run, rfl⟩, fun other member => still (all other member)⟩
      · have call : (m.signalShutdown i c rest).call = .raised := if_neg run
        simp only [Stopping, call]
        exact ⟨name, by simp, i, _, registered, here, Bool.eq_false_of_not_eq_true run⟩
  | @killed i rest c called at_ alive =>
      simp only [Stopping, called] at stopping
      obtain ⟨past, name, rfl, registered, ⟨before, found, started, told⟩, all⟩ := stopping
      cases at_.symm.trans found
      refine ⟨past ++ [name], by simp, gone_concat (fun other member => still (all other member)) ?_⟩
      intro j same
      cases registered.symm.trans same
      exact ⟨_, List.getElem?_set_self (List.getElem?_eq_some_iff.mp at_).1, started, told, rfl⟩
  | @joined _ i rest c called at_ dead =>
      simp only [Stopping, called] at stopping
      obtain ⟨past, name, rfl, registered, ⟨before, found, started, told⟩, all⟩ := stopping
      cases at_.symm.trans found
      refine ⟨past ++ [name], by simp, gone_concat (fun other member => still (all other member)) ?_⟩
      intro j same
      cases registered.symm.trans same
      refine ⟨c, at_, started, told, ?_⟩
      simpa only [Child.isAlive, started, Bool.true_and] using dead
  | @moved j event c after at_ run one =>
      cases call : m.call with
      | stopping rest =>
          simp only [Stopping, call] at stopping ⊢
          obtain ⟨past, same, all⟩ := stopping
          exact ⟨past, same, fun name member => still (all name member)⟩
      | joining i rest =>
          simp only [Stopping, call] at stopping ⊢
          obtain ⟨past, name, same, registered, ⟨before, found, started, told⟩, all⟩ := stopping
          obtain ⟨later, now, equal, event, -⟩ := kept i before found
          exact ⟨past, name, same, registered, ⟨later, now, equal.trans started, event told⟩,
            fun name member => still (all name member)⟩
      | returned =>
          simp only [Stopping, call] at stopping ⊢
          exact fun name member => still (stopping name member)
      | raised =>
          simp only [Stopping, call] at stopping ⊢
          obtain ⟨name, member, i, before, registered, found, started⟩ := stopping
          obtain ⟨later, now, equal, -, -⟩ := kept i before found
          exact ⟨name, member, i, later, registered, now, equal.trans started⟩

theorem callToGo_step {action : Action} (waits : action.calls = false) (one : m.step action = some next) :
    next.call.toGo + (if action.ofParent then 1 else 0) ≤ m.call.toGo := by
  cases stepped one with
  | started | stopsOne | stopsAll => cases waits
  | returned called | skipped called | killed called | joined called =>
      simp only [called, kill, Call.toGo, Action.ofParent, if_true, List.length_cons]
      omega
  | signalled called =>
      simp only [called, signalShutdown, Action.ofParent, if_true]
      split
      · simp only [Call.toGo, List.length_cons]
        omega
      · simp only [Call.toGo]
        omega
  | moved => exact Nat.le_refl _

theorem parent_enabled (numbered : m.Numbered) (busy : m.call.free = false) : (m.step (.parent true)).isSome := by
  obtain ⟨registered, joining, -⟩ := numbered
  simp only [step, parent]
  cases called : m.call with
  | returned | raised => simp [called, Call.free] at busy
  | stopping names =>
      cases names with
      | nil => rfl
      | cons name rest =>
          simp only
          cases found : m.processes.get name with
          | none => rfl
          | some i => simp [List.getElem?_eq_getElem (registered name i found)]
  | joining i names =>
      simp only [List.getElem?_eq_getElem (joining i names called), Option.bind_some, if_true]
      split_ifs <;> rfl

theorem stopping_of_run {actions : List Action} {names : List String} {last : Manager} (numbered : m.Numbered)
    (stopping : Stopping names m) (waits : ∀ action ∈ actions, action.calls = false)
    (run : exec step actions m = some last) :
    last.Numbered ∧ Stopping names last ∧ last.processes = m.processes ∧
      actions.countP Action.ofParent + last.call.toGo ≤ m.call.toGo := by
  induction actions generalizing m with
  | nil =>
      cases run
      exact ⟨numbered, stopping, rfl, Nat.le_of_eq (Nat.zero_add _)⟩
  | cons action rest ih =>
      obtain ⟨next, one, more⟩ := exec_cons.mp run
      obtain ⟨here, later⟩ := List.forall_mem_cons.mp waits
      obtain ⟨fits, loop, same, bound⟩ := ih (numbered.step one) (stopping.step here one) later more
      have closer := callToGo_step here one
      refine ⟨fits, loop, same.trans (kept_of_step here one).1, ?_⟩
      rw [List.countP_cons]
      omega

theorem stopping_of_called {before during : List Action} {last : Manager} (reached : exec step before fresh = some m)
    (called : exec step (.stopAll :: during) m = some last) (waits : ∀ action ∈ during, action.calls = false) :
    last.Numbered ∧ Stopping m.processes.keys last ∧ last.processes = m.processes ∧
      during.countP Action.ofParent ≤ 2 * m.processes.keys.length + 1 := by
  obtain ⟨start, one, run⟩ := exec_cons.mp called
  have numbered := (numbered_of_run reached).step one
  simp only [step] at one
  split_ifs at one
  cases one
  obtain ⟨later, stopping, same, bound⟩ := stopping_of_run numbered ⟨[], rfl, by simp⟩ waits run
  refine ⟨later, stopping, same, ?_⟩
  simp only [Call.toGo] at bound
  omega

theorem told_of_returned {before during : List Action} {last : Manager} (reached : exec step before fresh = some m)
    (called : exec step (.stopAll :: during) m = some last) (waits : ∀ action ∈ during, action.calls = false)
    (returned : last.call = .returned) {name : String} {i : Nat} {c : Child}
    (found : last.processes.get name = some i) (at_ : last.children[i]? = some c) :
    c.started = true ∧ c.shutdownEvent = true ∧ c.stage.alive = false := by
  obtain ⟨-, stopping, same, -⟩ := stopping_of_called reached called waits
  have registered : name ∈ m.processes.keys := Dict.mem_iff_get.mpr ⟨i, same ▸ found⟩
  simp only [Stopping, returned] at stopping
  obtain ⟨other, here, all⟩ := stopping name registered i found
  cases at_.symm.trans here
  exact all

/-- `stop_all`, called in any state that can be reached, takes the parent at most two
steps for each name and one more, none of which a process can keep from happening.
It returns just when all the registered processes had been started, and then each
of them was told to shut down and is dead. -/
theorem stopAll_spec {before during : List Action} {last : Manager} (reached : exec step before fresh = some m)
    (called : exec step (.stopAll :: during) m = some last) (waits : ∀ action ∈ during, action.calls = false) :
    during.countP Action.ofParent ≤ 2 * m.processes.keys.length + 1 ∧
      (last.call.free = false → (last.step (.parent true)).isSome) ∧
      (last.call.free = true → (last.call = .returned ↔ ∀ name i c, last.processes.get name = some i →
        last.children[i]? = some c → c.started = true)) ∧
      (last.call = .returned → ∀ name i c, last.processes.get name = some i →
        last.children[i]? = some c → c.shutdownEvent = true ∧ c.stage.alive = false) := by
  obtain ⟨numbered, stopping, -, bound⟩ := stopping_of_called reached called waits
  have gone := @told_of_returned m before during last reached called waits
  refine ⟨bound, parent_enabled numbered,
    fun ended => ⟨fun returned name i c found at_ => (gone returned found at_).1, ?_⟩, ?_⟩
  · intro all
    cases call : last.call with
    | returned => rfl
    | raised =>
        simp only [Stopping, call] at stopping
        obtain ⟨name, -, i, c, found, at_, unstarted⟩ := stopping
        cases unstarted.symm.trans (all name i c found at_)
    | stopping | joining => simp [call, Call.free] at ended
  · exact fun ended name i c found at_ => (gone ended found at_).2

/-- The first worker does not end in time, the second has not been started. -/
def halfStarted : List Action := [
  .startWorker "mdp" true, .child 0 .installHandlers, .child 0 (.instantiate false), .startWorker "mds" false]

def interrupted : List Action := [.parent false, .parent true, .parent false]

theorem stopAll_halfStarted : ∃ m last, exec step halfStarted fresh = some m ∧
    exec step (.stopAll :: interrupted) m = some last ∧ last.call = .raised ∧
    interrupted.countP Action.ofParent ≤ 2 * m.processes.keys.length + 1 ∧
      (last.call = .returned ↔ ∀ name i c, last.processes.get name = some i → last.children[i]? = some c →
        c.started = true) := by
  obtain ⟨m, last, reached, called, raised⟩ : ∃ m last, exec step halfStarted fresh = some m ∧
      exec step (.stopAll :: interrupted) m = some last ∧ last.call = .raised := ⟨_, _, rfl, rfl, rfl⟩
  obtain ⟨bound, -, exact, -⟩ := stopAll_spec reached called (by decide)
  exact ⟨m, last, reached, called, raised, bound, exact (by rw [raised]; rfl)⟩

/-! Processes whose name was given to another. -/

/-- A process is started and makes its worker, and nothing from outside ends it. -/
def orderly : Action → Bool
  | .startWorker _ starts => starts
  | .child _ (.instantiate raises) => !raises
  | .child _ .signal => false
  | .child _ .crash => false
  | _ => true

def waiting : Stage → Bool
  | .starting _ => true
  | .serving _ false => true
  | _ => false

def NotReplacing (m : Manager) : Action → Prop
  | .startWorker name _ => ∀ i c, m.processes.get name = some i → m.children[i]? = some c → c.stage.alive = false
  | _ => True

theorem waiting_step {i : Nat} {c after : Child} {event : Event} (fine : orderly (.child i event) = true)
    (one : c.step event = some after) (untold : c.shutdownEvent = false) (waits : waiting c.stage = true) :
    after.shutdownEvent = false ∧ waiting after.stage = true := by
  cases event with
  | signal | crash => cases fine
  | taskDone | monitorShutdown | wake =>
      simp only [Child.step] at one
      split at one <;> simp_all [waiting]
      all_goals grind
  | installHandlers | instantiate | cancelled | stopped | finalStopped | close =>
      simp only [Child.step] at one
      split_ifs at one <;> cases one <;> simp_all [waiting, orderly]

/-- While nothing goes wrong a process that was not told to shut down goes on, and
the parent waits for the one that was. -/
structure Orderly (m : Manager) : Prop where
  started : ∀ (i : Nat) (c : Child), m.children[i]? = some c → c.started = true
  untold : ∀ (i : Nat) (c : Child), m.children[i]? = some c → c.shutdownEvent = false → waiting c.stage = true
  told : ∀ (i : Nat) (c : Child), m.children[i]? = some c → c.shutdownEvent = true →
    c.stage.alive = false ∨ ∃ names, m.call = .joining i names
  joined : ∀ (i : Nat) (names : List String) (c : Child), m.call = .joining i names → m.children[i]? = some c →
    c.shutdownEvent = true
  call : m.call ≠ .raised

theorem Orderly.dead_of_told {i : Nat} {c : Child} (kept : m.Orderly) (at_ : m.children[i]? = some c)
    (told : c.shutdownEvent = true) (elsewhere : ∀ names, m.call ≠ .joining i names) : c.stage.alive = false := by
  rcases kept.told i c at_ told with dead | ⟨names, waits⟩
  · exact dead
  · exact absurd waits (elsewhere names)

theorem Orderly.calls {call : Call} (kept : m.Orderly) (elsewhere : ∀ i names, m.call ≠ .joining i names)
    (other : ∀ i names, call ≠ .joining i names) (fine : call ≠ .raised) : Orderly { m with call := call } where
  started := kept.started
  untold := kept.untold
  told _ _ at_ told := .inl (kept.dead_of_told at_ told (elsewhere _))
  joined i names _ called _ := absurd called (other i names)
  call := fine

theorem Orderly.step {action : Action} (kept : m.Orderly) (fine : orderly action = true)
    (one : m.step action = some next) : next.Orderly := by
  have freed (free : m.call.free = true) : ∀ i names, m.call ≠ .joining i names := by
    intro i names called
    rw [called] at free
    cases free
  cases stepped one with
  | @started name starts free =>
      have new (i : Nat) (c : Child) (at_ : (m.children ++ [.start starts])[i]? = some c) :
          m.children[i]? = some c ∨ c = .start starts := by
        rw [List.getElem?_append] at at_
        split_ifs at at_
        · exact .inl at_
        · rw [List.getElem?_singleton] at at_
          split_ifs at at_
          exact .inr (Option.some.inj at_).symm
      have ended : starts = true := fine
      subst ended
      refine ⟨fun i c at_ => ?_, fun i c at_ => ?_, fun i c at_ => ?_, nofun, nofun⟩
      · rcases new i c at_ with old | rfl
        · exact kept.started i c old
        · rfl
      · rcases new i c at_ with old | rfl
        · exact kept.untold i c old
        · exact fun _ => rfl
      · rcases new i c at_ with old | rfl
        · exact fun told => .inl (kept.dead_of_told old told (freed free i))
        · exact nofun
  | stopsOne free | stopsAll free => exact kept.calls (freed free) (by simp) (by simp)
  | returned called | skipped called => exact kept.calls (by simp [called]) (by simp) (by simp)
  | @signalled _ name names i c called _ at_ =>
      have started : c.started = true := kept.started i c at_
      have call : (m.signalShutdown i c names).call = .joining i names := if_pos started
      refine ⟨fun j d found => ?_, fun j d found => ?_, fun j d found told => ?_, fun j rest d calls found => ?_, ?_⟩
      · rcases getElem?_set_cases at_ found with ⟨rfl, rfl⟩ | ⟨_, same⟩
        · exact started
        · exact kept.started j d same
      · rcases getElem?_set_cases at_ found with ⟨rfl, rfl⟩ | ⟨_, same⟩
        · exact nofun
        · exact kept.untold j d same
      · rcases getElem?_set_cases at_ found with ⟨rfl, rfl⟩ | ⟨_, same⟩
        · exact .inr ⟨names, call⟩
        · exact .inl (kept.dead_of_told same told (by simp [called]))
      · cases call.symm.trans calls
        rcases getElem?_set_cases at_ found with ⟨_, rfl⟩ | ⟨apart, _⟩
        · rfl
        · exact absurd rfl apart
      · rw [call]
        exact nofun
  | @killed i names c called at_ alive =>
      have told := kept.joined i names c called at_
      refine ⟨fun j d found => ?_, fun j d found => ?_, fun j d found told => .inl ?_, nofun, nofun⟩
      · rcases getElem?_set_cases at_ found with ⟨rfl, rfl⟩ | ⟨_, same⟩
        · exact kept.started i c at_
        · exact kept.started j d same
      · rcases getElem?_set_cases at_ found with ⟨rfl, rfl⟩ | ⟨_, same⟩
        · intro untold
          cases told.symm.trans untold
        · exact kept.untold j d same
      · rcases getElem?_set_cases at_ found with ⟨rfl, rfl⟩ | ⟨apart, same⟩
        · rfl
        · apply kept.dead_of_told same told
          intro rest elsewhere
          cases called.symm.trans elsewhere
          exact apart rfl
  | @joined _ i names c called at_ dead =>
      refine ⟨kept.started, kept.untold, fun j d found told => .inl ?_, nofun, nofun⟩
      rcases kept.told j d found told with gone | ⟨rest, waits⟩
      · exact gone
      · cases called.symm.trans waits
        cases at_.symm.trans found
        simpa only [Child.isAlive, kept.started i c at_, Bool.true_and] using dead
  | @moved i event c after at_ started moves =>
      have event := Child.kept_step moves
      refine ⟨fun j d found => ?_, fun j d found => ?_, fun j d found told => ?_,
        fun j rest d calls found => ?_, kept.call⟩
      · rcases getElem?_set_cases at_ found with ⟨rfl, rfl⟩ | ⟨_, same⟩
        · exact (Child.started_step moves).trans started
        · exact kept.started j d same
      · rcases getElem?_set_cases at_ found with ⟨rfl, rfl⟩ | ⟨_, same⟩
        · intro untold
          have before : c.shutdownEvent = false := by
            by_contra told
            rw [event.1 (Bool.eq_true_of_not_eq_false told)] at untold
            cases untold
          exact (waiting_step fine moves before (kept.untold i c at_ before)).2
        · exact kept.untold j d same
      · rcases getElem?_set_cases at_ found with ⟨rfl, rfl⟩ | ⟨_, same⟩
        · have before : c.shutdownEvent = true := by
            by_contra untold
            have never := Bool.eq_false_of_not_eq_true untold
            rw [(waiting_step fine moves never (kept.untold i c at_ never)).1] at told
            cases told
          rcases kept.told i c at_ before with dead | waits
          · rw [dead] at event
            cases event.2
          · exact .inr waits
        · exact kept.told j d same told
      · rcases getElem?_set_cases at_ found with ⟨rfl, rfl⟩ | ⟨_, same⟩
        · exact event.1 (kept.joined i rest c calls at_)
        · exact kept.joined j rest d calls same

theorem orderly_fresh : Orderly fresh where
  started i c at_ := by cases List.getElem?_nil.symm.trans at_
  untold i c at_ := by cases List.getElem?_nil.symm.trans at_
  told i c at_ := by cases List.getElem?_nil.symm.trans at_
  joined i names c called := by cases called
  call := nofun

def Registered (m : Manager) : Prop :=
  ∀ (i : Nat) (c : Child), m.children[i]? = some c → c.stage.alive = true → ∃ name, m.processes.get name = some i

theorem Registered.step {action : Action} (registered : m.Registered) (idle : m.NotReplacing action)
    (one : m.step action = some next) : next.Registered := by
  intro i after at_ alive
  rcases child_of_step one at_ with ⟨c, found, moved⟩ | ⟨name, starts, rfl, here, -⟩
  · have before : c.stage.alive = true := by
      cases moved with
      | still => exact alive
      | own moves => exact (Child.kept_step moves).2
      | signalled => exact alive
      | killed => cases alive
    obtain ⟨name, same⟩ := registered i c found before
    refine ⟨name, ?_⟩
    cases stepped one with
    | @started other starts =>
        change (m.processes.set other m.children.length).get name = some i
        rw [Dict.get_set_of_ne _ ?_]
        · exact same
        · rintro rfl
          rw [idle i c same found] at before
          cases before
    | stopsOne | stopsAll | returned | skipped | signalled | killed | joined | moved => exact same
  · refine ⟨name, ?_⟩
    cases stepped one
    change (m.processes.set name m.children.length).get name = some i
    rw [Dict.get_set, if_pos rfl, here]

def Orphan (m : Manager) (i : Nat) : Prop :=
  (∃ c, m.children[i]? = some c ∧ c.shutdownEvent = false ∧ waiting c.stage = true) ∧
    (∀ name, m.processes.get name ≠ some i) ∧ ∀ names, m.call ≠ .joining i names

theorem Orphan.step {action : Action} {i : Nat} (orphan : m.Orphan i) (fine : orderly action = true)
    (one : m.step action = some next) : next.Orphan i := by
  obtain ⟨⟨c, at_, untold, waits⟩, unregistered, elsewhere⟩ := orphan
  have within := (List.getElem?_eq_some_iff.mp at_).1
  cases stepped one with
  | @started name starts =>
      refine ⟨⟨c, ?_, untold, waits⟩, fun other same => ?_, ?_⟩
      · exact (List.getElem?_append_left within).trans at_
      · change (m.processes.set name m.children.length).get other = some i at same
        rw [Dict.get_set] at same
        split_ifs at same
        · cases same
          exact Nat.lt_irrefl _ within
        · exact unregistered other same
      · intro names called
        cases starts <;> cases called
  | stopsOne | stopsAll | returned | skipped | joined => exact ⟨⟨c, at_, untold, waits⟩, unregistered, by simp⟩
  | @signalled _ name names j d _ registered =>
      have apart : j ≠ i := fun same => unregistered name (same ▸ registered)
      refine ⟨⟨c, (List.getElem?_set_ne apart).trans at_, untold, waits⟩, unregistered, fun rest called => ?_⟩
      simp only [signalShutdown] at called
      split_ifs at called
      cases called
      exact apart rfl
  | @killed j names d called =>
      have apart : j ≠ i := fun same => elsewhere names (same ▸ called)
      exact ⟨⟨c, (List.getElem?_set_ne apart).trans at_, untold, waits⟩, unregistered, by simp [kill]⟩
  | @moved j event d after found started moves =>
      refine ⟨?_, unregistered, elsewhere⟩
      by_cases same : j = i
      · subst same
        cases at_.symm.trans found
        exact ⟨after, List.getElem?_set_self within, waiting_step fine moves untold waits⟩
      · exact ⟨c, (List.getElem?_set_ne same).trans at_, untold, waits⟩

theorem orphan_of_replacing {action : Action} (numbered : m.Numbered) (kept : m.Orderly)
    (replacing : ¬m.NotReplacing action) (one : m.step action = some next) : ∃ i, next.Orphan i := by
  cases stepped one with
  | @started name starts free =>
      simp only [NotReplacing, not_forall] at replacing
      obtain ⟨i, c, registered, at_, alive⟩ := replacing
      have within := (List.getElem?_eq_some_iff.mp at_).1
      have untold : c.shutdownEvent = false := by
        by_contra told
        refine alive (kept.dead_of_told at_ (Bool.eq_true_of_not_eq_false told) fun names called => ?_)
        rw [called] at free
        cases free
      refine ⟨i, ⟨c, ?_, untold, kept.untold i c at_ untold⟩, fun other same => ?_, ?_⟩
      · exact (List.getElem?_append_left within).trans at_
      · change (m.processes.set name m.children.length).get other = some i at same
        rw [Dict.get_set] at same
        split_ifs at same with here
        · cases same
          exact Nat.lt_irrefl _ within
        · exact here (numbered.unique other name i same registered)
      · intro names called
        cases starts <;> cases called
  | stopsOne | stopsAll | returned | skipped | signalled | killed | joined | moved => exact absurd trivial replacing

theorem alive_of_waiting {stage : Stage} (waits : waiting stage = true) : stage.alive = true := by
  cases stage with
  | starting | serving => rfl
  | cancelling | stopping | finalStop | closing | exited | killed => cases waits

/-- In a run in which every process starts and none is ended from outside, a
`stop_all` leaves no process behind just when no name was ever given to a new
worker while its process was alive: the old process is out of reach. -/
theorem none_alive_iff {before during : List Action} {last : Manager} (reached : exec step before fresh = some m)
    (called : exec step (.stopAll :: during) m = some last) (waits : ∀ action ∈ during, action.calls = false)
    (fine : ∀ action ∈ before ++ .stopAll :: during, orderly action = true) (ended : last.call.free = true) :
    (∀ (i : Nat) (c : Child), last.children[i]? = some c → c.stage.alive = false) ↔
      Along step NotReplacing before fresh := by
  have whole : exec step (before ++ .stopAll :: during) fresh = some last := exec_append.mpr ⟨m, reached, called⟩
  have kept : last.Orderly :=
    along_invariant Orderly (fun kept fine one => kept.step fine one) orderly_fresh (along_of_forall fine fresh) whole
  constructor
  · intro dead
    have permitted : Along step NotReplacing (before ++ .stopAll :: during) fresh := by
      apply along_of_unmarked_on (fun m => m.Numbered ∧ m.Orderly) (fun m => ∃ i, m.Orphan i) _ _ _ _ fine whole
      · rintro ⟨i, ⟨c, at_, -, waits⟩, -⟩
        cases (dead i c at_).symm.trans (alive_of_waiting waits)
      · exact fun kept fine one => ⟨kept.1.step one, kept.2.step fine one⟩
      · rintro _ _ _ - ⟨i, orphan⟩ fine one
        exact ⟨i, orphan.step fine one⟩
      · exact fun kept _ replacing one => orphan_of_replacing kept.1 kept.2 replacing one
      · exact ⟨numbered_of_run (exec_nil fresh), orderly_fresh⟩
    exact (along_append.mp permitted).1
  · intro permitted i c at_
    have start : Registered fresh := fun i c at_ => by cases List.getElem?_nil.symm.trans at_
    have middle := along_invariant Registered (fun kept idle one => kept.step idle one) start permitted reached
    have quiet : ∀ action ∈ Action.stopAll :: during, ∀ m, NotReplacing m action := by
      intro action member m
      cases action with
      | startWorker name starts =>
          rcases List.mem_cons.mp member with other | member
          · cases other
          · cases waits _ member
      | stopProcess | stopAll | parent | child => trivial
    have registered := along_invariant Registered (fun kept idle one => kept.step (idle _) one) middle
      (along_of_forall quiet m) called
    have returned : last.call = .returned := by
      cases call : last.call with
      | returned => rfl
      | raised => exact absurd call kept.call
      | stopping | joining => simp [call, Call.free] at ended
    by_contra alive
    obtain ⟨name, same⟩ := registered i c at_ (Bool.eq_true_of_not_eq_false alive)
    exact alive (told_of_returned reached called waits returned same at_).2.2

def replaced : List Action := [.startWorker "mdp" true, .child 0 .installHandlers, .startWorker "mdp" true]

theorem none_alive_replaced : ∃ m last, exec step replaced fresh = some m ∧
    exec step (.stopAll :: interrupted) m = some last ∧ last.call = .returned ∧
    ((∀ (i : Nat) (c : Child), last.children[i]? = some c → c.stage.alive = false) ↔
      Along step NotReplacing replaced fresh) := by
  obtain ⟨m, last, reached, called, returned⟩ : ∃ m last, exec step replaced fresh = some m ∧
      exec step (.stopAll :: interrupted) m = some last ∧ last.call = .returned := ⟨_, _, rfl, rfl, rfl⟩
  refine ⟨m, last, reached, called, returned, ?_⟩
  exact none_alive_iff reached called (by decide) (by decide) (by rw [returned]; rfl)

end Manager

end KuhlHausMdp.ProcessManager.Lifecycle
