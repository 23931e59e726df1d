import AwsMock.Manager.Starting

/-!
# Stopping and starting modules

A stop source is never reset, so that a timer that was stopped once never runs again; and two servers do not stop all
of their timers. What the requests of a run therefore come to, whatever the order of all their steps.
-/

namespace AwsMock.Manager

open Lib

namespace Op

/-- A step that a request leads to. -/
def Serves : Op → Prop
  | construct _ => False
  | startServer name | stopServer name | setState name _ => name ∈ existingModules
  | timer name c a =>
    name ∈ existingModules ∧ (a = .requestStop → ∀ cls, serverClass name = some cls → cls.Stops c)

/-- A step stops a timer, or leads to that. -/
def Stops (name : Str) (c : Component) : Op → Prop
  | stopServer n => n = name
  | timer n c' a => n = name ∧ c' = c ∧ a = .requestStop
  | construct _ | startServer _ | setState _ _ => False

end Op

/-- Every module has a server. -/
def Modules.Served (modules : Modules) : Prop := ∀ name ∈ existingModules, (modules.serverMap.get? name).isSome

/-! ### One step of a request -/

/-- What a step changes: the timers and the record of its module only, where a stop stays requested, and no timer is
    stopped that the server does not stop. -/
structure Executed (op : Op) (next : List Op) (modules modules' : Modules) : Prop where
  sound : modules'.Sound
  served : modules'.Served
  follow : ∀ o ∈ next, o.Serves ∧ o.module = op.module
  frame : ∀ name, name ≠ op.module →
    modules'.db.recorded name = modules.db.recorded name ∧ ∀ c, modules'.shape name c = modules.shape name c
  grows : ∀ cls, serverClass op.module = some cls → ∀ {c k b}, modules.shape op.module c = some (k, b) →
    ∃ k' b', modules'.shape op.module c = some (k', b') ∧ k ≤ k' ∧ (b = true → b' = true) ∧
      (b' = true → b = true ∨ cls.Stops c)
  stops : ∀ cls, serverClass op.module = some cls → ∀ c, cls.Stops c → op.Stops op.module c →
    (∃ k, modules'.shape op.module c = some (k, true)) ∨ ∃ o ∈ next, o.Stops op.module c

/-- A step that leaves the timers and the records as they are. -/
theorem Executed.of_same {op : Op} {next : List Op} {modules : Modules} (hs : modules.Sound) (hserved : modules.Served)
    (hnext : ∀ o ∈ next, o.Serves ∧ o.module = op.module) (hstops : ∀ cls, serverClass op.module = some cls →
      ∀ c, cls.Stops c → op.Stops op.module c → ∃ o ∈ next, o.Stops op.module c) :
    Executed op next modules modules where
  sound := hs
  served := hserved
  follow := hnext
  frame _ _ := ⟨rfl, fun _ => rfl⟩
  grows _ _ _ k b hshape := ⟨k, b, hshape, Nat.le_refl k, id, .inl⟩
  stops cls hcls c hc h := .inr (hstops cls hcls c hc h)

section Exec

variable {modules : Modules} {name : Str} {c : Component} {a : Timer.Action} {state : ModuleState}
  (timeout : Str → Component → Int)

theorem exec_startServer (hs : modules.Sound) (hserved : modules.Served) (hname : name ∈ existingModules) :
    ∃ next, Op.exec timeout modules (.startServer name) = some (next, modules) ∧
      Executed (.startServer name) next modules modules := by
  obtain ⟨server, hget⟩ := Option.isSome_iff_exists.mp (hserved name hname)
  have hreg := ServerClass.regular (mem_serverClasses (hs.served hget)).1
  refine ⟨server.cls.initialized.map (·.op name) ++ [.timer name .server .detach], ?_,
    .of_same hs hserved (fun o ho => ?_) fun _ _ _ _ h => h.elim⟩
  · simp [Op.exec, hget, hs.active _ hreg.active]
  · rcases List.mem_append.mp ho with ho | ho
    · obtain ⟨call, hcall, rfl⟩ := List.mem_map.mp ho
      rcases hreg.starts call (List.mem_append_right _ hcall) with ⟨c, rfl⟩ | rfl
      · exact ⟨⟨hname, fun h => by cases h⟩, rfl⟩
      · exact ⟨hname, rfl⟩
    · rw [List.mem_singleton.mp ho]
      exact ⟨⟨hname, fun h => by cases h⟩, rfl⟩

theorem exec_stopServer (hs : modules.Sound) (hserved : modules.Served) (hname : name ∈ existingModules) :
    ∃ next, Op.exec timeout modules (.stopServer name) = some (next, modules) ∧
      Executed (.stopServer name) next modules modules := by
  obtain ⟨server, hget⟩ := Option.isSome_iff_exists.mp (hserved name hname)
  have hclass := hs.served hget
  have hreg := ServerClass.regular (mem_serverClasses hclass).1
  refine ⟨server.cls.shutdown.map (·.op name) ++ [.timer name .server .requestStop], by simp [Op.exec, hget],
    .of_same hs hserved (fun o ho => ?_) fun cls hcls c hc _ => ?_⟩
  · rcases List.mem_append.mp ho with ho | ho
    · obtain ⟨call, hcall, rfl⟩ := List.mem_map.mp ho
      rcases hreg.stops call hcall with ⟨c, rfl⟩ | rfl
      · refine ⟨⟨hname, fun _ cls hcls => .inr ?_⟩, rfl⟩
        rwa [← Option.some.inj (hclass.symm.trans hcls)]
      · exact ⟨hname, rfl⟩
    · rw [List.mem_singleton.mp ho]
      exact ⟨⟨hname, fun _ _ _ => .inl rfl⟩, rfl⟩
  · -- the stop of a timer is one of the steps that follow
    obtain rfl := Option.some.inj (hclass.symm.trans hcls)
    rcases hc with rfl | hc
    · exact ⟨_, List.mem_append_right _ (List.mem_singleton_self _), rfl, rfl, rfl⟩
    · exact ⟨_, List.mem_append_left _ (List.mem_map_of_mem hc), rfl, rfl, rfl⟩

theorem exec_timer (hs : modules.Sound) (hserved : modules.Served) (hop : (Op.timer name c a).Serves) :
    ∃ modules', Op.exec timeout modules (.timer name c a) = some ([], modules') ∧
      Executed (.timer name c a) [] modules modules' := by
  obtain ⟨hname, hstops⟩ := hop
  obtain ⟨server, hget⟩ := Option.isSome_iff_exists.mp (hserved name hname)
  refine ⟨{ modules with serverMap := modules.serverMap.insert name (server.act c a) }, by simp [Op.exec, hget],
    hs.insert_step hget (.act a), fun other hother => isSome_insert _ other (hserved other hother), by simp,
    fun other hother => ⟨rfl, fun c' => ?_⟩, fun cls hcls c' k b hshape => ?_, fun cls hcls c' _ h => ?_⟩
  · rw [Modules.shape_act hget, if_neg fun h => hother h.1]
  · simp only [Op.module] at hshape hcls ⊢
    rw [Modules.shape_act hget, hshape]
    by_cases hc : c' = c
    · subst hc
      rw [if_pos ⟨rfl, rfl⟩]
      cases a with
      | setTimeout timeout => exact ⟨k, b, rfl, Nat.le_refl k, id, .inl⟩
      | detach => exact ⟨k + 1, b, rfl, Nat.le_succ k, id, .inl⟩
      | requestStop => exact ⟨k, true, rfl, Nat.le_refl k, fun _ => rfl, fun _ => .inr (hstops rfl cls hcls)⟩
    · rw [if_neg fun h => hc h.2]
      exact ⟨k, b, rfl, Nat.le_refl k, id, .inl⟩
  · obtain ⟨-, rfl, rfl⟩ := h
    refine .inl ⟨(server.timers c).loops.length, ?_⟩
    simp only [Op.module]
    rw [Modules.shape_act hget, if_pos ⟨rfl, rfl⟩, Modules.shape, hget]
    rfl

theorem exec_setState (hs : modules.Sound) (hserved : modules.Served) (hname : name ∈ existingModules) :
    ∃ modules', Op.exec timeout modules (.setState name state) = some ([], modules') ∧
      Executed (.setState name state) [] modules modules' := by
  obtain ⟨m, db, hset, hsound, hrecorded⟩ := hs.setState hname state
  refine ⟨{ modules with db := db }, by rw [Op.exec, hset], hsound, hserved, by simp,
    fun other hother => ⟨(hrecorded other).trans (if_neg hother), fun _ => rfl⟩,
    fun _ _ _ k b hshape => ⟨k, b, hshape, Nat.le_refl k, id, .inl⟩, fun _ _ _ _ h => h.elim⟩

/-- No step of a request fails. -/
theorem exec_serves (hs : modules.Sound) (hserved : modules.Served) {op : Op} (hop : op.Serves) : ∃ next modules',
    op.exec timeout modules = some (next, modules') ∧ Executed op next modules modules' := by
  cases op with
  | construct cls => exact hop.elim
  | startServer name =>
    obtain ⟨next, hexec, h⟩ := exec_startServer timeout hs hserved hop
    exact ⟨next, modules, hexec, h⟩
  | stopServer name =>
    obtain ⟨next, hexec, h⟩ := exec_stopServer timeout hs hserved hop
    exact ⟨next, modules, hexec, h⟩
  | timer name c a =>
    obtain ⟨modules', hexec, h⟩ := exec_timer timeout hs hserved hop
    exact ⟨[], modules', hexec, h⟩
  | setState name state =>
    obtain ⟨modules', hexec, h⟩ := exec_setState timeout hs hserved hop
    exact ⟨[], modules', hexec, h⟩

end Exec

/-- What a thread decides to do leaves the timers and the records as they are, and a module that is recorded as running
    is left alone or stopped. -/
structure Begun (modules : Modules) (next : List Op) (modules' : Modules) : Prop where
  sound : modules'.Sound
  serverMap : modules'.serverMap = modules.serverMap
  recorded : ∀ name, modules'.db.recorded name = modules.db.recorded name
  follow : ∀ o ∈ next, o.Serves
  running : ∀ name ∈ existingModules, modules.db.recorded name = some .running →
    (∃ o ∈ next, o.module = name) → .stopServer name ∈ next

section Begin

variable {modules : Modules} {name : Str}

theorem stopOps_eq (hserved : modules.Served) (hname : name ∈ existingModules) :
    Job.stopOps modules name = [.setState name .stopped, .stopServer name] := by
  rw [Job.stopOps, if_pos (hserved name hname)]

theorem begin_startModule (hs : modules.Sound) (hname : name ∈ existingModules) : ∃ next modules',
    (Job.startModule name).begin modules = some (next, modules') ∧ Begun modules next modules' := by
  obtain ⟨m, db, hget, hm, hsound, hrecorded⟩ := hs.getModuleByName hname
  refine ⟨_, { modules with db := db }, by rw [Job.begin, hget], hsound, rfl, hrecorded, fun o ho => ?_,
    fun other _ hrunning => ?_⟩
  · split at ho
    · rcases List.mem_cons.mp ho with rfl | ho
      · exact hname
      · split at ho
        · rw [List.mem_singleton.mp ho]
          exact hname
        · cases ho
    · cases ho
  · rintro ⟨o, ho, rfl⟩
    split at ho
    · next hne =>
      -- the steps are about a module that does not run
      have hmodule : o.module = name := by
        rcases List.mem_cons.mp ho with rfl | ho
        · rfl
        · split at ho
          · rw [List.mem_singleton.mp ho]
            rfl
          · cases ho
      rw [hmodule, hm] at hrunning
      exact absurd (Option.some.inj hrunning) hne
    · cases ho

theorem begin_stopModule (hs : modules.Sound) (hserved : modules.Served) (hname : name ∈ existingModules) :
    ∃ next modules', (Job.stopModule name).begin modules = some (next, modules') ∧ Begun modules next modules' := by
  obtain ⟨m, db, hget, hm, hsound, hrecorded⟩ := hs.getModuleByName hname
  refine ⟨if m.state = .running then [.setState name .stopped, .stopServer name] else [], { modules with db := db }, ?_,
    hsound, rfl, hrecorded, fun o ho => ?_, fun other _ _ => ?_⟩
  · rw [Job.begin, hget]
    simp only [stopOps_eq hserved hname]
  · split at ho
    · simp only [List.mem_cons, List.not_mem_nil, or_false] at ho
      rcases ho with rfl | rfl
      · exact hname
      · exact hname
    · cases ho
  · rintro ⟨o, ho, rfl⟩
    split at ho
    · simp only [List.mem_cons, List.not_mem_nil, or_false] at ho
      rcases ho with rfl | rfl
      · simp [Op.module, *]
      · simp [Op.module, *]
    · cases ho

theorem begin_stopModules (hs : modules.Sound) (hserved : modules.Served) :
    ∃ next modules', Job.stopModules.begin modules = some (next, modules') ∧ Begun modules next modules' := by
  have hexist : ∀ m ∈ modules.db.listModules, m.name ∈ existingModules := by
    intro m hm
    obtain ⟨key, hget⟩ := OrderedMap.mem_values.mp hm
    exact (hs.known m.name).mp (OrderedMap.findIf_isSome.mpr ⟨key, m, hget, by simp⟩)
  refine ⟨_, modules, rfl, hs, rfl, fun _ => rfl, fun o ho => ?_, fun name _ _ => ?_⟩
  · obtain ⟨m, hm, ho⟩ := List.mem_flatMap.mp ho
    have hname := hexist m (List.mem_of_mem_filter hm)
    rw [stopOps_eq hserved hname] at ho
    simp only [List.mem_cons, List.not_mem_nil, or_false] at ho
    rcases ho with rfl | rfl
    · exact hname
    · exact hname
  · rintro ⟨o, ho, rfl⟩
    obtain ⟨m, hm, ho⟩ := List.mem_flatMap.mp ho
    have hops := stopOps_eq hserved (hexist m (List.mem_of_mem_filter hm))
    refine List.mem_flatMap.mpr ⟨m, hm, ?_⟩
    rw [hops] at ho ⊢
    simp only [List.mem_cons, List.not_mem_nil, or_false] at ho
    rcases ho with rfl | rfl
    · simp [Op.module]
    · simp [Op.module]

end Begin

/-! ### All orders of the steps -/

/-- A module that was never stopped: it is recorded as running, and each of its timers has been started once. -/
structure Calm (modules : Modules) (tasks : List Task) (cls : ServerClass) : Prop where
  running : modules.db.recorded cls.name = some .running
  once : ∀ c ∈ cls.timers, modules.shape cls.name c = some (1, false)
  untouched : ∀ task ∈ tasks, ∀ op ∈ task.ops, op.module ≠ cls.name

/-- A module that was stopped: the timers that its server stops were stopped, or a thread is about to stop them, and the
    others run on. -/
structure Stopped (modules : Modules) (tasks : List Task) (cls : ServerClass) : Prop where
  stops : ∀ c, cls.Stops c → (∃ k, modules.shape cls.name c = some (k, true)) ∨
    ∃ task ∈ tasks, ∃ op ∈ task.ops, op.Stops cls.name c
  lives : ∀ c ∈ cls.timers, ¬ cls.Stops c → ∃ k, modules.shape cls.name c = some (k + 1, false)

/-- While requests are handled. -/
structure Serving (modules : Modules) (tasks : List Task) : Prop where
  served : modules.Served
  ops : ∀ task ∈ tasks, ∀ op ∈ task.ops, op.Serves
  jobs : ∀ task ∈ tasks, ∀ m, .boot m ∉ task.jobs
  phase : ∀ cls ∈ serverClasses, cls ≠ gatewayServer → Calm modules tasks cls ∨ Stopped modules tasks cls

/-- A request is about a module that does not exist. -/
def Job.Unknown : Job → Prop
  | startModule name | stopModule name => name ∉ existingModules
  | boot _ | stopModules => False

theorem Op.Stops.module {op : Op} {name : Str} {c : Component} (h : op.Stops name c) : op.module = name := by
  cases op with
  | stopServer n => exact h
  | timer n c' a => exact h.1
  | construct cls => exact h.elim
  | startServer n => exact h.elim
  | setState n state => exact h.elim

section Tasks

variable {tasks : List Task} {i : Nat} {old new : Task}

/-- A step that is pending stays so, unless it is the one that is taken. -/
theorem pending_set {P : Op → Prop} {Q : Prop} (new : Task) (hi : tasks[i]? = some old)
    (hnew : ∀ o ∈ old.ops, P o → Q ∨ o ∈ new.ops) (h : ∃ task ∈ tasks, ∃ o ∈ task.ops, P o) :
    Q ∨ ∃ task ∈ tasks.set i new, ∃ o ∈ task.ops, P o := by
  obtain ⟨task, htask, o, ho, hP⟩ := h
  obtain ⟨j, hj⟩ := List.mem_iff_getElem?.mp htask
  by_cases hij : i = j
  · subst hij
    rw [hi] at hj
    cases hj
    refine (hnew o ho hP).imp_right fun ho' => ⟨new, ?_, o, ho', hP⟩
    exact List.mem_set (List.getElem?_eq_some_iff.mp hi).1 new
  · refine .inr ⟨task, List.mem_of_getElem? (i := j) ?_, o, ho, hP⟩
    rw [List.getElem?_set_ne hij, hj]

/-- What holds of all steps of all threads. -/
theorem forall_set {P : Op → Prop} (h : ∀ task ∈ tasks, ∀ o ∈ task.ops, P o) (hnew : ∀ o ∈ new.ops, P o) :
    ∀ task ∈ tasks.set i new, ∀ o ∈ task.ops, P o := by
  intro task htask
  rcases List.mem_or_eq_of_mem_set htask with htask | rfl
  · exact h task htask
  · exact hnew

end Tasks

namespace Serving

variable {modules : Modules} {tasks : List Task} {i : Nat} {op : Op} {ops : List Op} {job : Job} {jobs : List Job}

theorem jobs_set (h : Serving modules tasks) {new : Task} (hnew : ∀ m, .boot m ∉ new.jobs) :
    ∀ task ∈ tasks.set i new, ∀ m, .boot m ∉ task.jobs := by
  intro task htask
  rcases List.mem_or_eq_of_mem_set htask with htask | rfl
  · exact h.jobs task htask
  · exact hnew

/-- A thread takes the next step that it has decided on. -/
theorem exec (timeout : Str → Component → Int) (h : Serving modules tasks) (hs : modules.Sound)
    (hi : tasks[i]? = some { ops := op :: ops, jobs := jobs }) : ∃ next modules',
      op.exec timeout modules = some (next, modules') ∧ modules'.Sound ∧
      Serving modules' (tasks.set i { ops := next ++ ops, jobs := jobs }) := by
  have hmem := List.mem_of_getElem? hi
  obtain ⟨next, modules', hexec, hdone⟩ := exec_serves timeout hs h.served (h.ops _ hmem op List.mem_cons_self)
  have hnext : ∀ o ∈ next, ∃ task ∈ tasks.set i { ops := next ++ ops, jobs := jobs }, o ∈ task.ops :=
    fun o ho => ⟨_, List.mem_set (List.getElem?_eq_some_iff.mp hi).1 _, List.mem_append_left _ ho⟩
  refine ⟨next, modules', hexec, hdone.sound, hdone.served, forall_set h.ops ?_,
    h.jobs_set fun m hm => h.jobs _ hmem m hm, ?_⟩
  · intro o ho
    rcases List.mem_append.mp ho with ho | ho
    · exact (hdone.follow o ho).1
    · exact h.ops _ hmem o (List.mem_cons_of_mem _ ho)
  · intro cls hcls hgateway
    have hclass := (ServerClass.regular hcls).name
    rcases h.phase cls hcls hgateway with hcalm | hstopped
    · have hne := hcalm.untouched _ hmem op List.mem_cons_self
      obtain ⟨hrecorded, hshape⟩ := hdone.frame cls.name hne.symm
      refine .inl ⟨hrecorded.trans hcalm.running, fun c hc => (hshape c).trans (hcalm.once c hc),
        forall_set hcalm.untouched fun o ho => ?_⟩
      rcases List.mem_append.mp ho with ho | ho
      · rw [(hdone.follow o ho).2]
        exact hne
      · exact hcalm.untouched _ hmem o (List.mem_cons_of_mem _ ho)
    · -- a step about another module changes nothing here
      have hgrows : ∀ {c k b}, modules.shape cls.name c = some (k, b) → ∃ k' b',
          modules'.shape cls.name c = some (k', b') ∧ k ≤ k' ∧ (b = true → b' = true) ∧
            (b' = true → b = true ∨ cls.Stops c) := by
        intro c k b hshape
        by_cases hmodule : op.module = cls.name
        · rw [← hmodule] at hshape hclass ⊢
          exact hdone.grows cls hclass hshape
        · exact ⟨k, b, ((hdone.frame cls.name (Ne.symm hmodule)).2 c).trans hshape, Nat.le_refl k, id, .inl⟩
      refine .inr ⟨fun c hc => ?_, fun c hc hnot => ?_⟩
      · rcases hstopped.stops c hc with ⟨k, hshape⟩ | hpending
        · obtain ⟨k', b', hshape', -, hb, -⟩ := hgrows hshape
          exact .inl ⟨k', by rw [hshape', hb rfl]⟩
        · have hkept : ∀ o ∈ op :: ops, o.Stops cls.name c → op.Stops cls.name c ∨ o ∈ next ++ ops := by
            intro o ho hP
            rcases List.mem_cons.mp ho with rfl | ho
            · exact .inl hP
            · exact .inr (List.mem_append_right _ ho)
          rcases pending_set { ops := next ++ ops, jobs := jobs } hi hkept hpending with hop | hpending
          · have hmodule := hop.module
            rw [← hmodule] at hclass hop
            refine (hdone.stops cls hclass c hc hop).imp (fun hshape => hmodule ▸ hshape) fun ⟨o, ho, hP⟩ => ?_
            obtain ⟨task, htask, ho'⟩ := hnext o ho
            exact ⟨task, htask, o, ho', hmodule ▸ hP⟩
          · exact .inr hpending
      · obtain ⟨k, hshape⟩ := hstopped.lives c hc hnot
        obtain ⟨k', b', hshape', hk, -, hb⟩ := hgrows hshape
        refine ⟨k' - 1, ?_⟩
        have hfalse : b' = false := by
          rw [← Bool.not_eq_true]
          exact fun htrue => (hb htrue).elim Bool.false_ne_true hnot
        rw [hshape', hfalse, Nat.sub_add_cancel (Nat.le_trans (Nat.le_add_left 1 k) hk)]

/-- What a thread decides to do with the next module. -/
theorem begun {next : List Op} {modules' : Modules} (h : Serving modules tasks)
    (hi : tasks[i]? = some { ops := [], jobs := job :: jobs }) (hbegun : Begun modules next modules') :
    Serving modules' (tasks.set i { ops := next, jobs := jobs }) := by
  have hmem := List.mem_of_getElem? hi
  have hnew : ({ ops := next, jobs := jobs } : Task) ∈ tasks.set i { ops := next, jobs := jobs } :=
    List.mem_set (List.getElem?_eq_some_iff.mp hi).1 _
  have hshape : ∀ name c, modules'.shape name c = modules.shape name c := fun name c => by
    rw [Modules.shape, hbegun.serverMap, Modules.shape]
  refine ⟨fun name hname => by rw [hbegun.serverMap]; exact h.served name hname, forall_set h.ops hbegun.follow,
    h.jobs_set fun m hm => h.jobs _ hmem m (List.mem_cons_of_mem _ hm), fun cls hcls hgateway => ?_⟩
  rcases h.phase cls hcls hgateway with hcalm | hstopped
  · by_cases hnext : ∃ o ∈ next, o.module = cls.name
    · -- the module is about to be stopped
      have hstop := hbegun.running cls.name (ServerClass.regular hcls).exist hcalm.running hnext
      refine .inr ⟨fun c _ => .inr ⟨_, hnew, _, hstop, rfl⟩, fun c hc _ => ⟨0, ?_⟩⟩
      rw [hshape, hcalm.once c hc]
    · refine .inl ⟨(hbegun.recorded cls.name).trans hcalm.running,
        fun c hc => (hshape cls.name c).trans (hcalm.once c hc),
        forall_set hcalm.untouched fun o ho hmodule => hnext ⟨o, ho, hmodule⟩⟩
  · refine .inr ⟨fun c hc => ?_, fun c hc hnot => by rw [hshape]; exact hstopped.lives c hc hnot⟩
    rw [hshape]
    refine (hstopped.stops c hc).imp_right fun hpending => ?_
    exact (pending_set (Q := False) _ hi (by simp) hpending).resolve_left id

theorem begin (h : Serving modules tasks) (hs : modules.Sound)
    (hi : tasks[i]? = some { ops := [], jobs := job :: jobs }) (hknown : ¬ job.Unknown) : ∃ next modules',
      job.begin modules = some (next, modules') ∧ modules'.Sound ∧
      Serving modules' (tasks.set i { ops := next, jobs := jobs }) := by
  have hbegin : ∃ next modules', job.begin modules = some (next, modules') ∧ Begun modules next modules' := by
    cases job with
    | boot m => exact absurd List.mem_cons_self (h.jobs _ (List.mem_of_getElem? hi) m)
    | startModule name => exact begin_startModule hs (not_not.mp hknown)
    | stopModule name => exact begin_stopModule hs h.served (not_not.mp hknown)
    | stopModules => exact begin_stopModules hs h.served
  obtain ⟨next, modules', hbegin, hbegun⟩ := hbegin
  exact ⟨next, modules', hbegin, hbegun.sound, h.begun hi hbegun⟩

end Serving

/-- When the modules have been started, none of them was stopped. -/
theorem Booting.serving {modules : Modules} (h : Booting modules [] []) : Serving modules [{}] := by
  have hcount : ∀ cls ∈ serverClasses, ∀ c ∈ cls.timers, modules.shape cls.name c = some (1, false) := by
    intro cls hcls c hc
    have hsum := h.count cls hcls c
    rw [(ServerClass.regular hcls).once c hc] at hsum
    rcases hshape : modules.shape cls.name c with _ | ⟨k, b⟩
    · rw [hshape] at hsum
      cases hsum
    · rw [hshape] at hsum
      obtain rfl : k = 1 := hsum
      rw [h.unstopped hshape]
  refine ⟨fun name hname => ?_, by simp, by simp, fun cls hcls hgateway => .inl ⟨?_, hcount cls hcls, by simp⟩⟩
  · obtain ⟨cls, hclass⟩ := exists_serverClass name hname
    obtain ⟨hcls, rfl⟩ := mem_serverClasses hclass
    obtain ⟨server, hget, -⟩ := Modules.shape_eq_some (hcount cls hcls .server List.mem_cons_self)
    rw [hget]
    rfl
  · rcases h.running cls hcls hgateway with hrunning | ⟨op, hop, -⟩ | ⟨m, hm, -⟩
    · exact hrunning
    · cases hop
    · cases hm

/-! ### The loops -/

/-- A step of a loop leaves the number of loops, the stop, and the records as they are, but for that of the gateway. -/
structure Looped (modules modules' : Modules) : Prop where
  sound : modules'.Sound
  shape : ∀ name c, modules'.shape name c = modules.shape name c
  recorded : ∀ name, name ≠ gatewayServer.name → modules'.db.recorded name = modules.db.recorded name

theorem isSome_shape (modules : Modules) (name : Str) (c : Component) :
    (modules.shape name c).isSome = (modules.serverMap.get? name).isSome := Option.isSome_map

theorem looped {s t : System} {name : Str} {c : Component} {j : Nat} (hs : s.modules.Sound)
    (h : s.loop name c j = some t) : t.tasks = s.tasks ∧ t.terminated = s.terminated ∧ Looped s.modules t.modules := by
  obtain ⟨server, hget, rfl⟩ := Option.map_eq_some_iff.mp h
  refine ⟨rfl, rfl, ?_⟩
  have hsound := hs.insert_step (c := c) hget (.loop j)
  have hshape : ∀ other c', Modules.shape { s.modules with
      serverMap := s.modules.serverMap.insert name
        { server with timers := Function.update server.timers c ((server.timers c).step (.loop j)) } } other c' =
      s.modules.shape other c' := by
    intro other c'
    unfold Modules.shape
    rw [OrderedMap.get?_insert]
    by_cases hname : other = name
    · subst hname
      rw [if_pos rfl, hget]
      by_cases hc : c' = c
      · subst hc
        simp [Timer.step]
      · simp [Function.update_of_ne hc]
    · rw [if_neg hname]
  split
  · next hgateway =>
    have hexist : gatewayServer.name ∈ existingModules := by decide
    obtain ⟨m, db, hset, hsound', hrecorded⟩ := hsound.setState hexist .running
    simp only at hset hrecorded
    rw [hgateway.1, hset]
    rw [← hgateway.1]
    exact ⟨hsound', hshape, fun other hother => by rw [hrecorded, if_neg hother]⟩
  · exact ⟨hsound, hshape, fun _ _ => rfl⟩

theorem name_ne_gateway {cls : ServerClass} (hcls : cls ∈ serverClasses) (h : cls ≠ gatewayServer) :
    cls.name ≠ gatewayServer.name := fun hname =>
  h (serverClass_unique (ServerClass.regular (by decide)).name hcls hname)

theorem Booting.looped {modules modules' : Modules} {ops : List Op} {found : List Module}
    (h : Booting modules ops found) (hloop : Looped modules modules') : Booting modules' ops found where
  boots op hop := (h.boots op hop).mono fun name hserved => by
    rwa [← isSome_shape modules' name .server, hloop.shape, isSome_shape]
  known := h.known
  count cls hcls c := by rw [hloop.shape, h.count cls hcls c]
  unstopped hshape := h.unstopped (by rwa [← hloop.shape])
  running cls hcls hgateway := by
    rw [hloop.recorded _ (name_ne_gateway hcls hgateway)]
    exact h.running cls hcls hgateway

theorem Serving.looped {modules modules' : Modules} {tasks : List Task} (h : Serving modules tasks)
    (hloop : Looped modules modules') : Serving modules' tasks where
  served name hname := by
    rw [← isSome_shape modules' name .server, hloop.shape, isSome_shape]
    exact h.served name hname
  ops := h.ops
  jobs := h.jobs
  phase cls hcls hgateway := by
    rcases h.phase cls hcls hgateway with hcalm | hstopped
    · refine .inl ⟨?_, fun c hc => (hloop.shape cls.name c).trans (hcalm.once c hc), hcalm.untouched⟩
      rw [hloop.recorded _ (name_ne_gateway hcls hgateway), hcalm.running]
    · refine .inr ⟨fun c hc => ?_, fun c hc hnot => ?_⟩
      · rw [hloop.shape]
        exact hstopped.stops c hc
      · rw [hloop.shape]
        exact hstopped.lives c hc hnot

/-! ### Runs -/

namespace System

/-- What every reachable state keeps. -/
structure Inv (s : System) : Prop where
  sound : s.modules.Sound
  phase : (∃ ops found, s.tasks = [{ ops := ops, jobs := found.map .boot }] ∧ Booting s.modules ops found) ∨
    ∃ rest, s.tasks = {} :: rest ∧ Serving s.modules s.tasks

/-- A thread is about to deal with a module that does not exist. -/
def AtUnknown (s : System) (i : Nat) : Prop :=
  ∃ job jobs, s.tasks[i]? = some { ops := [], jobs := job :: jobs } ∧ job.Unknown

variable {s t : System} {i : Nat} {timeout : Str → Component → Int} {e : Event} {oid : Str → Str} {active : Str → Bool}

theorem inv_boot (hoid : (existingModules.map oid).Nodup) : (boot oid active).Inv where
  sound := sound_boot active hoid
  phase := .inl ⟨[], _, rfl, booting_boot active hoid⟩

/-- When the first thread has nothing more to do, requests are handled. -/
theorem Inv.serving (h : s.Inv) {rest : List Task} (htasks : s.tasks = {} :: rest) : Serving s.modules s.tasks := by
  rcases h.phase with ⟨ops, found, htasks', hbooting⟩ | ⟨-, -, hserving⟩
  · rw [htasks'] at htasks
    obtain ⟨hfirst, rfl⟩ := List.cons.inj htasks
    obtain ⟨rfl, hjobs⟩ := Task.mk.inj hfirst
    obtain rfl := List.map_eq_nil_iff.mp hjobs
    rw [htasks']
    exact hbooting.serving
  · exact hserving

theorem call_cases (h : s.call timeout i = some t) :
    (∃ op ops jobs, s.tasks[i]? = some { ops := op :: ops, jobs := jobs } ∧
      t = s.goOn i ops jobs (op.exec timeout s.modules)) ∨
    ∃ job jobs, s.tasks[i]? = some { ops := [], jobs := job :: jobs } ∧ t = s.goOn i [] jobs (job.begin s.modules) := by
  unfold call at h
  split at h
  · next op ops jobs hi => exact .inl ⟨op, ops, jobs, hi, (Option.some.inj h).symm⟩
  · next job jobs hi => exact .inr ⟨job, jobs, hi, (Option.some.inj h).symm⟩
  · cases h

/-- A request is about a module that does not exist. -/
theorem begin_unknown {modules : Modules} (hs : modules.Sound) {job : Job} (h : job.Unknown) :
    job.begin modules = none := by
  cases job with
  | boot m => exact h.elim
  | startModule name =>
    obtain ⟨e, he⟩ := hs.getModuleByName_error h
    rw [Job.begin, he]
  | stopModule name =>
    obtain ⟨e, he⟩ := hs.getModuleByName_error h
    rw [Job.begin, he]
  | stopModules => exact h.elim

theorem call_booting {ops : List Op} {found : List Module} (h : Booting s.modules ops found) (hs : s.modules.Sound)
    (htasks : s.tasks = [{ ops := ops, jobs := found.map .boot }]) (hcall : s.call timeout i = some t) :
    t.Inv ∧ t.terminated = s.terminated ∧ ¬ s.AtUnknown i := by
  rcases i with _ | i
  · rcases call_cases hcall with ⟨op, ops', jobs, hi, rfl⟩ | ⟨job, jobs, hi, rfl⟩
    · rw [htasks] at hi
      obtain ⟨rfl, rfl⟩ := Task.mk.inj (Option.some.inj hi)
      obtain ⟨next, modules', hexec, hs', hbooting⟩ := h.exec timeout hs
      rw [hexec]
      refine ⟨⟨hs', .inl ⟨next ++ ops', found, by simp [goOn, htasks], hbooting⟩⟩, rfl, ?_⟩
      rintro ⟨job, jobs, hi', -⟩
      rw [htasks] at hi'
      cases hi'
    · rw [htasks] at hi
      obtain ⟨rfl, hjobs⟩ := Task.mk.inj (Option.some.inj hi)
      obtain ⟨m, found', rfl, rfl, rfl⟩ := List.map_eq_cons_iff.mp hjobs
      obtain ⟨next, hbegin, hbooting⟩ := h.begin
      rw [hbegin]
      refine ⟨⟨hs, .inl ⟨next, found', by simp [goOn, htasks], hbooting⟩⟩, rfl, ?_⟩
      rintro ⟨job, jobs, hi', hunknown⟩
      rw [htasks] at hi'
      cases hi'
      exact hunknown
  · unfold System.call at hcall
    rw [htasks] at hcall
    cases hcall

theorem call_serving {rest : List Task} (h : Serving s.modules s.tasks) (hs : s.modules.Sound)
    (htasks : s.tasks = {} :: rest) (hcall : s.call timeout i = some t) :
    t.Inv ∧ (t.terminated = true ↔ s.terminated = true ∨ s.AtUnknown i) := by
  -- the first thread stays as it is
  have hfirst : ∀ (new : Task) {task : Task}, s.tasks[i]? = some task → task ≠ {} →
      ∃ rest', s.tasks.set i new = {} :: rest' := by
    intro new task hi hne
    rw [htasks] at hi ⊢
    rcases i with _ | i
    · exact absurd (Option.some.inj hi).symm hne
    · exact ⟨_, List.set_cons_succ ..⟩
  rcases call_cases hcall with ⟨op, ops, jobs, hi, rfl⟩ | ⟨job, jobs, hi, rfl⟩
  · obtain ⟨next, modules', hexec, hs', hserving⟩ := h.exec timeout hs hi
    obtain ⟨rest', hrest'⟩ := hfirst { ops := next ++ ops, jobs := jobs } hi nofun
    rw [hexec]
    refine ⟨⟨hs', .inr ⟨rest', hrest', hserving⟩⟩, ?_⟩
    have hnot : ¬ s.AtUnknown i := by
      rintro ⟨job, jobs, hi', -⟩
      rw [hi] at hi'
      cases hi'
    simp [goOn, hnot]
  · by_cases hunknown : job.Unknown
    · rw [begin_unknown hs hunknown]
      exact ⟨⟨hs, .inr ⟨rest, htasks, h⟩⟩, iff_of_true rfl (.inr ⟨job, jobs, hi, hunknown⟩)⟩
    · obtain ⟨next, modules', hbegin, hs', hserving⟩ := h.begin hs hi hunknown
      obtain ⟨rest', hrest'⟩ := hfirst { ops := next, jobs := jobs } hi nofun
      rw [hbegin]
      refine ⟨⟨hs', .inr ⟨rest', by simpa [goOn] using hrest', by simpa [goOn] using hserving⟩⟩, ?_⟩
      have hnot : ¬ s.AtUnknown i := by
        rintro ⟨job', jobs', hi', hunknown'⟩
        rw [hi] at hi'
        cases hi'
        exact hunknown hunknown'
      simp [goOn, hnot]

theorem Inv.call (h : s.Inv) (hcall : s.call timeout i = some t) :
    t.Inv ∧ (t.terminated = true ↔ s.terminated = true ∨ s.AtUnknown i) := by
  rcases h.phase with ⟨ops, found, htasks, hbooting⟩ | ⟨rest, htasks, hserving⟩
  · obtain ⟨hinv, hterminated, hnot⟩ := call_booting hbooting h.sound htasks hcall
    exact ⟨hinv, by simp [hterminated, hnot]⟩
  · exact call_serving hserving h.sound htasks hcall

theorem Inv.arrive {r : Request} (h : s.Inv) (harrive : s.arrive r = some t) : t.Inv := by
  unfold System.arrive at harrive
  split at harrive
  · next rest htasks =>
    cases harrive
    have hserving := h.serving htasks
    have hnew : ∀ m, Job.boot m ∉ r.jobs := by
      intro m hm
      cases r with
      | start names => simp [Request.jobs] at hm
      | stop names => simp [Request.jobs] at hm
      | restart names => simp [Request.jobs] at hm
      | exit => simp [Request.jobs] at hm
    refine ⟨h.sound, .inr ⟨rest ++ [{ jobs := r.jobs }], by rw [htasks]; rfl, hserving.served, ?_, ?_, ?_⟩⟩
    · intro task htask
      rcases List.mem_append.mp htask with htask | htask
      · exact hserving.ops task htask
      · rw [List.mem_singleton.mp htask]
        exact nofun
    · intro task htask
      rcases List.mem_append.mp htask with htask | htask
      · exact hserving.jobs task htask
      · rw [List.mem_singleton.mp htask]
        exact hnew
    · intro cls hcls hgateway
      rcases hserving.phase cls hcls hgateway with hcalm | hstopped
      · refine .inl ⟨hcalm.running, hcalm.once, fun task htask => ?_⟩
        rcases List.mem_append.mp htask with htask | htask
        · exact hcalm.untouched task htask
        · rw [List.mem_singleton.mp htask]
          exact nofun
      · refine .inr ⟨fun c hc => ?_, hstopped.lives⟩
        exact (hstopped.stops c hc).imp_right fun ⟨task, htask, h⟩ => ⟨task, List.mem_append_left _ htask, h⟩
  · cases harrive

theorem Inv.loop {name : Str} {c : Component} {j : Nat} (h : s.Inv) (hloop : s.loop name c j = some t) : t.Inv := by
  obtain ⟨htasks, -, hlooped⟩ := looped h.sound hloop
  refine ⟨hlooped.sound, ?_⟩
  rw [htasks]
  rcases h.phase with ⟨ops, found, htasks', hbooting⟩ | ⟨rest, htasks', hserving⟩
  · exact .inl ⟨ops, found, htasks', hbooting.looped hlooped⟩
  · exact .inr ⟨rest, htasks', hserving.looped hlooped⟩

theorem Inv.step (hstep : System.step timeout e s = some t) (h : s.Inv) : t.Inv := by
  unfold System.step at hstep
  split at hstep
  · cases hstep
  · cases e with
    | request r => exact h.arrive hstep
    | call i => exact (h.call hstep).1
    | loop name c j => exact h.loop hstep

/-- No thread has anything left to do. -/
def Quiet (s : System) : Prop := ∀ task ∈ s.tasks, task.ops = [] ∧ task.jobs = []

/-- The loops have noticed the stops of their timers. -/
def Noticed (s : System) : Prop :=
  ∀ {name server}, s.modules.serverMap.get? name = some server → ∀ c, (server.timers c).Noticed

/-- The server of a module was stopped. -/
def HasBeenStopped (s : System) (name : Str) : Prop :=
  ∃ server, s.modules.serverMap.get? name = some server ∧ (server.timers .server).stopRequested = true

/-- Each timer of a module has one loop if the module is recorded as running, and none if it is not. -/
def WorksAsRecorded (s : System) (cls : ServerClass) : Prop :=
  ∃ server, s.modules.serverMap.get? cls.name = some server ∧ ∀ c ∈ cls.timers,
    (server.timers c).live = if s.modules.db.recorded cls.name = some .running then 1 else 0

variable {events : List Event} {cls : ServerClass}

theorem inv_run (hoid : (existingModules.map oid).Nodup)
    (hrun : Lib.steps (step timeout) events (boot oid active) = some s) : s.Inv :=
  Lib.steps_inv (fun hstep h => Inv.step hstep h) hrun (inv_boot hoid)

theorem Inv.served (h : s.Inv) (hquiet : s.Quiet) : Serving s.modules s.tasks := by
  rcases h.phase with ⟨ops, found, htasks, -⟩ | ⟨rest, htasks, hserving⟩
  · have hdone := hquiet { ops := ops, jobs := found.map .boot } (by rw [htasks]; exact List.mem_cons_self)
    obtain ⟨rfl, hjobs⟩ := hdone
    obtain rfl := List.map_eq_nil_iff.mp hjobs
    exact h.serving htasks
  · exact hserving

/-- A module that was never stopped. -/
theorem works_of_calm {tasks : List Task} (h : Calm s.modules tasks cls) (hs : s.modules.Sound) :
    s.WorksAsRecorded cls ∧ ¬ s.HasBeenStopped cls.name := by
  obtain ⟨server, hget, -, hstop⟩ := Modules.shape_eq_some (h.once .server List.mem_cons_self)
  refine ⟨⟨server, hget, fun c hc => ?_⟩, fun ⟨server', hget', hstop'⟩ => ?_⟩
  · obtain ⟨server', hget', hlength, hrunning⟩ := Modules.shape_eq_some (h.once c hc)
    obtain rfl := Option.some.inj (hget.symm.trans hget')
    rw [hs.live_eq hget hrunning, hlength, if_pos h.running]
  · obtain rfl := Option.some.inj (hget.symm.trans hget')
    rw [hstop] at hstop'
    cases hstop'

/-- A module that was stopped, when all threads are done. -/
theorem works_iff_of_stopped (h : Stopped s.modules s.tasks cls) (hs : s.modules.Sound) (hquiet : s.Quiet)
    (hnoticed : s.Noticed) : s.HasBeenStopped cls.name ∧
      (s.WorksAsRecorded cls ↔ s.modules.db.recorded cls.name ≠ some .running ∧ ∀ c ∈ cls.timers, cls.Stops c) := by
  have hstops : ∀ c, cls.Stops c → ∃ k, s.modules.shape cls.name c = some (k, true) := by
    intro c hc
    refine (h.stops c hc).resolve_right ?_
    rintro ⟨task, htask, op, hop, -⟩
    rw [(hquiet task htask).1] at hop
    cases hop
  have hdead : ∀ c, cls.Stops c → ∀ server, s.modules.serverMap.get? cls.name = some server →
      (server.timers c).live = 0 := by
    intro c hc server hget
    obtain ⟨k, hshape⟩ := hstops c hc
    obtain ⟨server', hget', -, hstop⟩ := Modules.shape_eq_some hshape
    obtain rfl := Option.some.inj (hget.symm.trans hget')
    exact Timer.live_eq_zero (hnoticed hget c hstop)
  obtain ⟨k, hshape⟩ := hstops .server (.inl rfl)
  obtain ⟨server, hget, -, hstop⟩ := Modules.shape_eq_some hshape
  refine ⟨⟨server, hget, hstop⟩, ?_⟩
  constructor
  · rintro ⟨server', hget', hworks⟩
    obtain rfl := Option.some.inj (hget.symm.trans hget')
    have hstopped : s.modules.db.recorded cls.name ≠ some .running := by
      intro hrunning
      have hone := hworks .server List.mem_cons_self
      rw [hdead .server (.inl rfl) server hget, if_pos hrunning] at hone
      cases hone
    refine ⟨hstopped, fun c hc => ?_⟩
    by_contra hnot
    obtain ⟨k, hshape⟩ := h.lives c hc hnot
    obtain ⟨server', hget', hlength, hrunning⟩ := Modules.shape_eq_some hshape
    obtain rfl := Option.some.inj (hget.symm.trans hget')
    have hnone := hworks c hc
    rw [hs.live_eq hget hrunning, hlength, if_neg hstopped] at hnone
    cases hnone
  · rintro ⟨hstopped, hall⟩
    exact ⟨server, hget, fun c hc => by rw [hdead c (hall c hc) server hget, if_neg hstopped]⟩

/-- Whatever requests start, stop and restart modules in whatever order of all steps: when all of it is done, a module
    other than the gateway works as recorded exactly if it was never stopped, or if it is not recorded as running and
    its server stops all of its timers. -/
theorem works_as_recorded_iff (hoid : (existingModules.map oid).Nodup)
    (hrun : Lib.steps (step timeout) events (boot oid active) = some s) (hquiet : s.Quiet) (hnoticed : s.Noticed)
    (hcls : cls ∈ serverClasses) (hgateway : cls ≠ gatewayServer) :
    s.WorksAsRecorded cls ↔ ¬ s.HasBeenStopped cls.name ∨
      s.modules.db.recorded cls.name ≠ some .running ∧ ∀ c ∈ cls.timers, cls.Stops c := by
  have hinv := inv_run hoid hrun
  rcases (hinv.served hquiet).phase cls hcls hgateway with hcalm | hstopped
  · obtain ⟨hworks, hnot⟩ := works_of_calm hcalm hinv.sound
    exact iff_of_true hworks (.inl hnot)
  · obtain ⟨hhas, hiff⟩ := works_iff_of_stopped hstopped hinv.sound hquiet hnoticed
    rw [hiff]
    simp [hhas]

/-- The modules are started, `sqs` is stopped, and its loops notice it. -/
def stopEvents : List Event :=
  List.replicate 64 (.call 0) ++ [.request (.stop [str "sqs"])] ++ List.replicate 7 (.call 1) ++
    [.loop (str "sqs") .server 0, .loop (str "sqs") .monitoring 0, .loop (str "sqs") .worker 0]

theorem stopped_works : ∃ s,
    Lib.steps (step fun _ _ => 1) stopEvents (boot id fun _ => false) = some s ∧
    (s.WorksAsRecorded sqsServer ↔ ¬ s.HasBeenStopped sqsServer.name ∨
      s.modules.db.recorded sqsServer.name ≠ some .running ∧ ∀ c ∈ sqsServer.timers, sqsServer.Stops c) := by
  have hends : ((Lib.steps (step fun _ _ => 1) stopEvents (boot id fun _ => false)).map fun s =>
      decide ((∀ task ∈ s.tasks, task.ops = [] ∧ task.jobs.length = 0) ∧ ∀ e ∈ s.modules.serverMap.entries,
        ∀ c ∈ [Component.server, .monitoring, .worker], (e.2.timers c).stopRequested = true →
          ∀ l ∈ (e.2.timers c).loops, l.place = .ended)) = some true := by decide +kernel
  obtain ⟨s, hrun, hdone⟩ := Option.map_eq_some_iff.mp hends
  obtain ⟨hquiet, hnoticed⟩ := of_decide_eq_true hdone
  refine ⟨s, hrun, works_as_recorded_iff (by decide) hrun
    (fun task htask => ⟨(hquiet task htask).1, List.length_eq_zero_iff.mp (hquiet task htask).2⟩)
    (fun hget c => hnoticed _ (OrderedMap.get?_eq_some.mp hget) c (by cases c <;> simp)) (by decide) (by decide)⟩

theorem terminated_arrive {r : Request} (h : s.arrive r = some t) : t.terminated = s.terminated := by
  unfold arrive at h
  split at h
  · cases h
    rfl
  · cases h

end System

end AwsMock.Manager
