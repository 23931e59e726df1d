import Mathlib.Algebra.GroupWithZero.Nat
import Mathlib.Data.List.Nodup
import AwsMock.Manager.Servers

/-!
# The timers of the modules

What holds of the timers and the records of the modules while the manager starts them and while it handles requests.
-/

namespace AwsMock.Manager

open Lib

/-! ### The classes -/

namespace ServerClass

/-- The timers that a server starts, itself included. -/
def timers (cls : ServerClass) : List Component :=
  .server :: (cls.constructed ++ cls.initialized).filterMap fun
    | .start c => some c
    | _ => none

/-- `Timer::Stop` of the server stops the timer. -/
def Stops (cls : ServerClass) (c : Component) : Prop := c = .server ∨ .stop c ∈ cls.shutdown

instance (cls : ServerClass) (c : Component) : Decidable (cls.Stops c) :=
  inferInstanceAs (Decidable (c = .server ∨ .stop c ∈ cls.shutdown))

/-- How often the timer is started when the server is constructed and started. -/
def startCount (cls : ServerClass) (c : Component) : Nat :=
  (cls.constructed ++ cls.initialized).count (.start c) + if c = .server then 1 else 0

/-- What the classes have in common. -/
structure Regular (cls : ServerClass) : Prop where
  name : serverClass cls.name = some cls
  exist : cls.name ∈ existingModules
  active : cls.active ∈ existingModules
  starts : ∀ call ∈ cls.constructed ++ cls.initialized, (∃ c, call = .start c) ∨ call = .setRunning
  stops : ∀ call ∈ cls.shutdown, (∃ c, call = .stop c) ∨ call = .stopHttpServer
  once : ∀ c ∈ cls.timers, cls.startCount c = 1

variable {cls : ServerClass} {name : Str}

theorem regular (h : cls ∈ serverClasses) : cls.Regular := by
  have hname : ∀ cls ∈ serverClasses, serverClass cls.name = some cls := by decide
  have hexist : ∀ cls ∈ serverClasses, cls.name ∈ existingModules := by decide
  have hactive : ∀ cls ∈ serverClasses, cls.active ∈ existingModules := by decide
  have hstarts : ∀ cls ∈ serverClasses, ∀ call ∈ cls.constructed ++ cls.initialized,
      call ∈ [.start .monitoring, .start .worker, .setRunning] := by decide
  have hstops : ∀ cls ∈ serverClasses, ∀ call ∈ cls.shutdown,
      call ∈ [.stop .monitoring, .stop .worker, .stopHttpServer] := by decide
  have honce : ∀ cls ∈ serverClasses, ∀ c ∈ cls.timers, cls.startCount c = 1 := by decide
  refine ⟨hname cls h, hexist cls h, hactive cls h, fun call hcall => ?_, fun call hcall => ?_, honce cls h⟩
  · have hmem := hstarts cls h call hcall
    simp only [List.mem_cons, List.not_mem_nil, or_false] at hmem
    rcases hmem with rfl | rfl | rfl
    · exact .inl ⟨_, rfl⟩
    · exact .inl ⟨_, rfl⟩
    · exact .inr rfl
  · have hmem := hstops cls h call hcall
    simp only [List.mem_cons, List.not_mem_nil, or_false] at hmem
    rcases hmem with rfl | rfl | rfl
    · exact .inl ⟨_, rfl⟩
    · exact .inl ⟨_, rfl⟩
    · exact .inr rfl

/-- All servers but the gateway say that they run. -/
theorem setRunning_mem : ∀ cls ∈ serverClasses, cls ≠ gatewayServer →
    .setRunning ∈ cls.constructed ∨ .setRunning ∈ cls.initialized := by decide

end ServerClass

theorem mem_serverClasses {cls : ServerClass} {name : Str} (h : serverClass name = some cls) :
    cls ∈ serverClasses ∧ cls.name = name := by
  have hname := List.find?_some h
  exact ⟨List.mem_of_find?_eq_some h, of_decide_eq_true hname⟩

/-- A class is known by its name. -/
theorem serverClass_unique {cls cls' : ServerClass} {name : Str} (h : serverClass name = some cls)
    (hcls' : cls' ∈ serverClasses) (hname : cls'.name = name) : cls' = cls := by
  have hother := (ServerClass.regular hcls').name
  rw [hname, h] at hother
  exact (Option.some.inj hother).symm

theorem exists_serverClass : ∀ name ∈ existingModules, ∃ cls, serverClass name = some cls := by
  have hall : ∀ name ∈ existingModules, (serverClass name).isSome := by decide
  exact fun name hname => Option.isSome_iff_exists.mp (hall name hname)

/-! ### Records and timers -/

namespace Modules

/-- How many loops of a timer were started, and whether it was stopped. -/
def shape (modules : Modules) (name : Str) (c : Component) : Option (Nat × Bool) :=
  (modules.serverMap.get? name).map fun server => ((server.timers c).loops.length, (server.timers c).stopRequested)

/-- The store has an active record of every module, servers are of the class of their module, and their timers are
    only changed as timers are. -/
structure Sound (modules : Modules) : Prop where
  known : ∀ name, modules.db.moduleExists name = true ↔ name ∈ existingModules
  active : ∀ name ∈ existingModules, modules.db.isActive name = true
  served : ∀ {name server}, modules.serverMap.get? name = some server → serverClass name = some server.cls
  ran : ∀ {name server} (c : Component), modules.serverMap.get? name = some server →
    ∃ timeout events, server.timers c = Timer.run events { timeout := timeout }

variable {modules modules' : Modules} {name : Str} {c : Component} {state : ModuleState} {server : Server}
  {a : Timer.Action} {timeout : Str → Component → Int}

theorem shape_eq_some {k : Nat} {b : Bool} (h : modules.shape name c = some (k, b)) : ∃ server,
    modules.serverMap.get? name = some server ∧ (server.timers c).loops.length = k ∧
      (server.timers c).stopRequested = b := by
  obtain ⟨server, hget, heq⟩ := Option.map_eq_some_iff.mp h
  cases heq
  exact ⟨server, hget, rfl, rfl⟩

/-- What an action does to the number of loops and to the stop. -/
def changed : Timer.Action → Nat × Bool → Nat × Bool
  | .detach, (k, b) => (k + 1, b)
  | .requestStop, (k, _) => (k, true)
  | .setTimeout _, x => x

theorem shape_act (hget : modules.serverMap.get? name = some server) (a : Timer.Action) (other : Str) (c' : Component) :
    shape { modules with serverMap := modules.serverMap.insert name (server.act c a) } other c' =
      if other = name ∧ c' = c then (modules.shape other c').map (changed a) else modules.shape other c' := by
  unfold shape
  rw [OrderedMap.get?_insert]
  by_cases hname : other = name
  · subst hname
    by_cases hc : c' = c
    · subst hc
      rw [if_pos rfl, if_pos ⟨rfl, rfl⟩, hget]
      cases a with
      | setTimeout timeout => simp [Server.act, Timer.act, changed]
      | detach => simp [Server.act, Timer.act, changed]
      | requestStop => simp [Server.act, Timer.act, changed]
    · rw [if_pos rfl, if_neg (fun h => hc h.2), hget]
      simp [Server.act, Function.update_of_ne hc]
  · rw [if_neg hname, if_neg (fun h => hname h.1)]

namespace Sound

/-- Records change, but they stay. -/
theorem with_db (h : modules.Sound) {db : ModuleMemoryDb} (hdb : ∀ other,
    db.isActive other = modules.db.isActive other ∧ db.moduleExists other = modules.db.moduleExists other) :
    Sound { modules with db := db } where
  known other := by rw [(hdb other).2, h.known]
  active other hother := by rw [(hdb other).1, h.active other hother]
  served := h.served
  ran := h.ran

/-- A server takes the place of another one. -/
theorem insert (h : modules.Sound) (hcls : serverClass name = some server.cls)
    (hran : ∀ c, ∃ timeout events, server.timers c = Timer.run events { timeout := timeout }) :
    Sound { modules with serverMap := modules.serverMap.insert name server } where
  known := h.known
  active := h.active
  served hget := by
    rw [OrderedMap.get?_insert] at hget
    split at hget
    · next heq =>
      cases hget
      rw [heq, hcls]
    · exact h.served hget
  ran c hget := by
    rw [OrderedMap.get?_insert] at hget
    split at hget
    · cases hget
      exact hran c
    · exact h.ran c hget

/-- A timer takes a step. -/
theorem insert_step (h : modules.Sound) (hget : modules.serverMap.get? name = some server) (e : Timer.Event) :
    Sound { modules with
      serverMap := modules.serverMap.insert name
        { server with timers := Function.update server.timers c ((server.timers c).step e) } } := by
  have hcls := h.served hget
  refine h.insert hcls fun c' => ?_
  by_cases hc : c' = c
  · subst hc
    obtain ⟨timeout, events, hran⟩ := h.ran c' hget
    refine ⟨timeout, events ++ [e], ?_⟩
    rw [Timer.run_concat, ← hran]
    simp
  · simpa [Function.update_of_ne hc] using h.ran c' hget

/-- A loop runs as long as no stop was requested. -/
theorem live_eq (h : modules.Sound) (hget : modules.serverMap.get? name = some server)
    (hstop : (server.timers c).stopRequested = false) : (server.timers c).live = (server.timers c).loops.length := by
  obtain ⟨timeout, events, hran⟩ := h.ran c hget
  rw [hran] at hstop ⊢
  exact Timer.live_eq_length (Timer.place_ne_ended timeout events hstop)

theorem setState (h : modules.Sound) (hname : name ∈ existingModules) (state : ModuleState) : ∃ m db,
    modules.db.setState name state = (.ok m, db) ∧ Sound { modules with db := db } ∧
      ∀ other, db.recorded other = if other = name then some state else modules.db.recorded other := by
  obtain ⟨⟨m, hm⟩, hother⟩ := ModuleMemoryDb.setState_ok ((h.known name).mpr hname) state
  exact ⟨m, (modules.db.setState name state).2, Prod.ext hm rfl, h.with_db fun other => (hother other).2,
    fun other => (hother other).1⟩

theorem getModuleByName (h : modules.Sound) (hname : name ∈ existingModules) : ∃ m db,
    modules.db.getModuleByName name = (.ok m, db) ∧ modules.db.recorded name = some m.state ∧
      Sound { modules with db := db } ∧ ∀ other, db.recorded other = modules.db.recorded other := by
  obtain ⟨⟨key, m⟩, hfind⟩ := Option.isSome_iff_exists.mp ((h.known name).mpr hname)
  obtain ⟨hm, hother⟩ := ModuleMemoryDb.getModuleByName_ok hfind
  refine ⟨_, (modules.db.getModuleByName name).2, Prod.ext hm rfl, ?_, h.with_db fun other => (hother other).2,
    fun other => (hother other).1⟩
  simp [ModuleMemoryDb.recorded, hfind]

/-- A name that is not one of a module throws. -/
theorem getModuleByName_error (h : modules.Sound) (hname : name ∉ existingModules) :
    ∃ e, modules.db.getModuleByName name = (.error e, modules.db) := by
  have hnone : modules.db.findModule name = none := by
    rw [← Option.not_isSome_iff_eq_none]
    exact mt (h.known name).mp hname
  exact ⟨_, by rw [ModuleMemoryDb.getModuleByName, hnone]⟩

end Sound

end Modules

/-! ### Starting the modules -/

namespace Op

/-- The module that a step is about. -/
def module : Op → Str
  | construct cls => cls.name
  | startServer name | stopServer name | timer name _ _ | setState name _ => name

/-- A step that the start of the modules takes. -/
def Boots (modules : Modules) : Op → Prop
  | construct cls => cls ∈ serverClasses
  | startServer name => (modules.serverMap.get? name).isSome
  | timer name _ a => (modules.serverMap.get? name).isSome ∧ a = .detach
  | setState name state => name ∈ existingModules ∧ state = .running
  | stopServer _ => False

/-- How often a step starts a timer of a server, with the steps that it leads to. -/
def starts (cls : ServerClass) (c : Component) : Op → Nat
  | construct cls' => if cls'.name = cls.name then cls.startCount c else 0
  | startServer name =>
    if name = cls.name then cls.initialized.count (.start c) + if c = .server then 1 else 0 else 0
  | timer name c' a => if name = cls.name ∧ c' = c ∧ a = .detach then 1 else 0
  | stopServer _ | setState _ _ => 0

/-- A step records that the module runs, or leads to one that does. -/
def SetsRunning (cls : ServerClass) : Op → Prop
  | construct cls' => cls' = cls
  | startServer name => name = cls.name ∧ .setRunning ∈ cls.initialized
  | setState name state => name = cls.name ∧ state = .running
  | stopServer _ | timer _ _ _ => False

end Op

/-- How often a timer is still started for the modules that were found. -/
def Module.starts (cls : ServerClass) (c : Component) (m : Module) : Nat :=
  if m.name = cls.name then cls.startCount c else 0

/-- While the first thread starts the modules: what it has still to do are the starts that each timer lacks. -/
structure Booting (modules : Modules) (ops : List Op) (found : List Module) : Prop where
  boots : ∀ op ∈ ops, op.Boots modules
  known : ∀ m ∈ found, m.name ∈ existingModules ∧ m.status = .active
  count : ∀ cls ∈ serverClasses, ∀ c, (modules.shape cls.name c).elim 0 Prod.fst +
    (ops.map (Op.starts cls c)).sum + (found.map (Module.starts cls c)).sum = cls.startCount c
  unstopped : ∀ {name c k b}, modules.shape name c = some (k, b) → b = false
  running : ∀ cls ∈ serverClasses, cls ≠ gatewayServer → modules.db.recorded cls.name = some .running ∨
    (∃ op ∈ ops, op.SetsRunning cls) ∨ ∃ m ∈ found, m.name = cls.name

/-- A server that is made has no loops. -/
theorem Modules.shape_server {modules : Modules} {timeout : Str → Component → Int} (cls : ServerClass) (other : Str)
    (c : Component) :
    Modules.shape { modules with serverMap := modules.serverMap.insert cls.name (cls.server timeout) } other c =
      if other = cls.name then some (0, false) else modules.shape other c := by
  unfold Modules.shape
  rw [OrderedMap.get?_insert]
  by_cases hname : other = cls.name
  · simp [hname, ServerClass.server]
  · simp [hname]

namespace ServerCall

variable {cls : ServerClass} {c : Component} {calls : List ServerCall} {name : Str}

/-- How often the calls of a class start a timer. -/
theorem sum_starts (cls : ServerClass) (c : Component) (name : Str) : ∀ calls : List ServerCall,
    ((calls.map (·.op name)).map (Op.starts cls c)).sum = if name = cls.name then calls.count (.start c) else 0
  | [] => by simp
  | call :: calls => by
    rw [List.map_cons, List.map_cons, List.sum_cons, sum_starts cls c name calls, List.count_cons]
    cases call with
    | start c' =>
      by_cases hname : name = cls.name
      · by_cases hc : c' = c
        · simp [ServerCall.op, Op.starts, hname, hc, Nat.add_comm]
        · simp [ServerCall.op, Op.starts, hname, hc]
      · simp [ServerCall.op, Op.starts, hname]
    | stop c' => simp [ServerCall.op, Op.starts]
    | setRunning => simp [ServerCall.op, Op.starts]
    | stopHttpServer => simp [ServerCall.op, Op.starts]

end ServerCall

theorem Op.Boots.mono {modules modules' : Modules} {op : Op} (h : op.Boots modules)
    (hserved : ∀ name, (modules.serverMap.get? name).isSome → (modules'.serverMap.get? name).isSome) :
    op.Boots modules' := by
  cases op with
  | construct cls => exact h
  | startServer name => exact hserved name h
  | stopServer name => exact h
  | timer name c a => exact ⟨hserved name h.1, h.2⟩
  | setState name state => exact h

theorem isSome_insert {modules : Modules} {name : Str} (server : Server) (other : Str)
    (h : (modules.serverMap.get? other).isSome) : ((modules.serverMap.insert name server).get? other).isSome := by
  rw [OrderedMap.get?_insert]
  split
  · rfl
  · exact h

/-- The calls of a constructor or of `Initialize` are steps of the start. -/
theorem ServerCall.boots {modules : Modules} {name : Str} {calls : List ServerCall}
    (hcalls : ∀ call ∈ calls, (∃ c, call = .start c) ∨ call = .setRunning) (hname : name ∈ existingModules)
    (hserved : (modules.serverMap.get? name).isSome) : ∀ op ∈ calls.map (·.op name), op.Boots modules := by
  intro op hop
  obtain ⟨call, hcall, rfl⟩ := List.mem_map.mp hop
  rcases hcalls call hcall with ⟨c, rfl⟩ | rfl
  · exact ⟨hserved, rfl⟩
  · exact ⟨hname, rfl⟩

namespace Booting

variable {modules : Modules} {op : Op} {ops : List Op} {found : List Module} {timeout : Str → Component → Int}

theorem construct {cls : ServerClass} (h : Booting modules (.construct cls :: ops) found) (hs : modules.Sound) :
    Modules.Sound { modules with serverMap := modules.serverMap.insert cls.name (cls.server timeout) } ∧
    Booting { modules with serverMap := modules.serverMap.insert cls.name (cls.server timeout) }
      (cls.constructed.map (·.op cls.name) ++ [.startServer cls.name] ++ ops) found := by
  have hcls : cls ∈ serverClasses := h.boots _ List.mem_cons_self
  have hreg := ServerClass.regular hcls
  refine ⟨hs.insert hreg.name fun c => ⟨timeout cls.name c, [], rfl⟩, ?_, h.known, ?_, ?_, ?_⟩
  · have hself : ((modules.serverMap.insert cls.name (cls.server timeout)).get? cls.name).isSome := by simp
    intro op hop
    rw [List.append_assoc, List.mem_append, List.singleton_append, List.mem_cons] at hop
    rcases hop with hop | rfl | hop
    · exact ServerCall.boots (fun call hcall => hreg.starts call (List.mem_append_left _ hcall)) hreg.exist hself op hop
    · exact hself
    · exact (h.boots op (List.mem_cons_of_mem _ hop)).mono fun other => isSome_insert _ other
  · intro cls' hcls' c
    have hcount := h.count cls' hcls' c
    rw [Modules.shape_server, List.append_assoc, List.map_append, List.sum_append, ServerCall.sum_starts]
    rw [List.map_cons, List.sum_cons, Op.starts] at hcount
    simp only [List.singleton_append, List.map_cons, List.sum_cons, Op.starts]
    by_cases hname : cls'.name = cls.name
    · -- the timer has not been started
      obtain rfl := serverClass_unique hreg.name hcls' hname
      rw [if_pos rfl] at hcount
      simp only [if_true, Option.elim_some]
      rw [ServerClass.startCount, List.count_append] at hcount ⊢
      omega
    · rw [if_neg (Ne.symm hname)] at hcount
      simp only [if_neg hname, if_neg (Ne.symm hname)]
      omega
  · intro name c k b hshape
    rw [Modules.shape_server] at hshape
    split at hshape
    · cases hshape
      rfl
    · exact h.unstopped hshape
  · intro cls' hcls' hgateway
    rcases h.running cls' hcls' hgateway with hrunning | ⟨op, hop, hsets⟩ | hfound
    · exact .inl hrunning
    · rcases List.mem_cons.mp hop with rfl | hop
      · -- either the constructor or `Initialize` says that it runs
        obtain rfl : cls = cls' := hsets
        rcases ServerClass.setRunning_mem cls hcls hgateway with hmem | hmem
        · exact .inr (.inl ⟨_, List.mem_append_left _ (List.mem_append_left _ (List.mem_map_of_mem hmem)), rfl, rfl⟩)
        · exact .inr (.inl ⟨.startServer cls.name, by simp, rfl, hmem⟩)
      · exact .inr (.inl ⟨op, List.mem_append_right _ hop, hsets⟩)
    · exact .inr (.inr hfound)

theorem startServer (timeout : Str → Component → Int) {name : Str}
    (h : Booting modules (.startServer name :: ops) found) (hs : modules.Sound) : ∃ next,
      Op.exec timeout modules (.startServer name) = some (next, modules) ∧
      Booting modules (next ++ ops) found := by
  obtain ⟨server, hget⟩ := Option.isSome_iff_exists.mp (h.boots _ List.mem_cons_self)
  obtain ⟨hcls, hname⟩ := mem_serverClasses (hs.served hget)
  have hreg := ServerClass.regular hcls
  refine ⟨server.cls.initialized.map (·.op name) ++ [.timer name .server .detach], ?_, ?_, h.known, ?_, h.unstopped, ?_⟩
  · simp [Op.exec, hget, hs.active _ hreg.active]
  · intro op hop
    rw [List.append_assoc, List.mem_append, List.singleton_append, List.mem_cons] at hop
    have hserved : (modules.serverMap.get? name).isSome := by rw [hget]; rfl
    rcases hop with hop | rfl | hop
    · exact ServerCall.boots (fun call hcall => hreg.starts call (List.mem_append_right _ hcall)) (hname ▸ hreg.exist)
        hserved op hop
    · exact ⟨hserved, rfl⟩
    · exact h.boots op (List.mem_cons_of_mem _ hop)
  · intro cls' hcls' c
    have hcount := h.count cls' hcls' c
    rw [List.append_assoc, List.map_append, List.sum_append, ServerCall.sum_starts]
    rw [List.map_cons, List.sum_cons, Op.starts] at hcount
    simp only [List.singleton_append, List.map_cons, List.sum_cons, Op.starts]
    by_cases hname' : name = cls'.name
    · have hsame := serverClass_unique (hs.served hget) hcls' hname'.symm
      rw [if_pos hname'] at hcount ⊢
      rw [hsame] at hcount ⊢
      simp only [hname.symm, true_and, and_true, eq_comm (a := Component.server)] at hcount ⊢
      omega
    · rw [if_neg hname'] at hcount ⊢
      simp only [hname', false_and, if_false]
      omega
  · intro cls' hcls' hgateway
    rcases h.running cls' hcls' hgateway with hrunning | ⟨op, hop, hsets⟩ | hfound
    · exact .inl hrunning
    · rcases List.mem_cons.mp hop with rfl | hop
      · obtain ⟨hname', hmem⟩ := hsets
        rw [serverClass_unique (hs.served hget) hcls' hname'.symm] at hmem
        exact .inr (.inl ⟨_, List.mem_append_left _ (List.mem_append_left _ (List.mem_map_of_mem hmem)), hname', rfl⟩)
      · exact .inr (.inl ⟨op, List.mem_append_right _ hop, hsets⟩)
    · exact .inr (.inr hfound)

theorem timer (timeout : Str → Component → Int) {name : Str} {c : Component} {a : Timer.Action}
    (h : Booting modules (.timer name c a :: ops) found) (hs : modules.Sound) : ∃ modules',
      Op.exec timeout modules (.timer name c a) = some ([], modules') ∧
      modules'.Sound ∧ Booting modules' ops found := by
  obtain ⟨hserved, rfl⟩ := h.boots _ List.mem_cons_self
  obtain ⟨server, hget⟩ := Option.isSome_iff_exists.mp hserved
  refine ⟨{ modules with serverMap := modules.serverMap.insert name (server.act c .detach) }, ?_,
    hs.insert_step hget (.act .detach), ?_, h.known, ?_, ?_, ?_⟩
  · simp [Op.exec, hget]
  · exact fun op hop => (h.boots op (List.mem_cons_of_mem _ hop)).mono fun other => isSome_insert _ other
  · intro cls hcls c'
    have hcount := h.count cls hcls c'
    rw [List.map_cons, List.sum_cons, Op.starts] at hcount
    rw [Modules.shape_act hget]
    by_cases hhere : cls.name = name ∧ c' = c
    · obtain ⟨hname, rfl⟩ := hhere
      have hshape : modules.shape cls.name c' =
          some ((server.timers c').loops.length, (server.timers c').stopRequested) := by
        rw [hname, Modules.shape, hget, Option.map_some]
      rw [if_pos ⟨hname.symm, rfl, rfl⟩, hshape, Option.elim_some] at hcount
      rw [if_pos ⟨hname, rfl⟩, hshape, Option.map_some, Option.elim_some]
      simp only [Modules.changed]
      omega
    · rw [if_neg fun hthere => hhere ⟨hthere.1.symm, hthere.2.1.symm⟩] at hcount
      rw [if_neg hhere]
      omega
  · intro other c' k b hshape
    rw [Modules.shape_act hget] at hshape
    split at hshape
    · obtain ⟨⟨k', b'⟩, hshape', heq⟩ := Option.map_eq_some_iff.mp hshape
      cases heq
      exact h.unstopped hshape'
    · exact h.unstopped hshape
  · intro cls hcls hgateway
    rcases h.running cls hcls hgateway with hrunning | ⟨op, hop, hsets⟩ | hfound
    · exact .inl hrunning
    · rcases List.mem_cons.mp hop with rfl | hop
      · exact hsets.elim
      · exact .inr (.inl ⟨op, hop, hsets⟩)
    · exact .inr (.inr hfound)

theorem setState (timeout : Str → Component → Int) {name : Str} {state : ModuleState}
    (h : Booting modules (.setState name state :: ops) found) (hs : modules.Sound) : ∃ modules',
      Op.exec timeout modules (.setState name state) = some ([], modules') ∧
      modules'.Sound ∧ Booting modules' ops found := by
  obtain ⟨hname, rfl⟩ := h.boots _ List.mem_cons_self
  obtain ⟨m, db, hset, hsound, hrecorded⟩ := hs.setState hname .running
  refine ⟨{ modules with db := db }, ?_, hsound, ?_, h.known, ?_, h.unstopped, ?_⟩
  · rw [Op.exec, hset]
  · exact fun op hop => (h.boots op (List.mem_cons_of_mem _ hop)).mono fun _ => id
  · intro cls hcls c
    have hcount := h.count cls hcls c
    rwa [List.map_cons, List.sum_cons, Op.starts, Nat.zero_add] at hcount
  · intro cls hcls hgateway
    rw [hrecorded]
    split
    · exact .inl rfl
    · next hne =>
      rcases h.running cls hcls hgateway with hrunning | ⟨op, hop, hsets⟩ | hfound
      · exact .inl hrunning
      · rcases List.mem_cons.mp hop with rfl | hop
        · exact absurd hsets.1.symm hne
        · exact .inr (.inl ⟨op, hop, hsets⟩)
      · exact .inr (.inr hfound)

/-- A step of the start goes on. -/
theorem exec (timeout : Str → Component → Int) (h : Booting modules (op :: ops) found) (hs : modules.Sound) :
    ∃ next modules', op.exec timeout modules = some (next, modules') ∧ modules'.Sound ∧
      Booting modules' (next ++ ops) found := by
  cases op with
  | construct cls => exact ⟨_, _, rfl, h.construct hs⟩
  | startServer name =>
    obtain ⟨next, hexec, hbooting⟩ := h.startServer timeout hs
    exact ⟨next, modules, hexec, hs, hbooting⟩
  | stopServer name => exact (h.boots _ List.mem_cons_self).elim
  | timer name c a =>
    obtain ⟨modules', hexec, hs', hbooting⟩ := h.timer timeout hs
    exact ⟨[], modules', hexec, hs', hbooting⟩
  | setState name state =>
    obtain ⟨modules', hexec, hs', hbooting⟩ := h.setState timeout hs
    exact ⟨[], modules', hexec, hs', hbooting⟩

/-- The next module that was found. -/
theorem begin {m : Module} (h : Booting modules [] (m :: found)) : ∃ next,
    (Job.boot m).begin modules = some (next, modules) ∧ Booting modules next found := by
  obtain ⟨hname, hactive⟩ := h.known m List.mem_cons_self
  obtain ⟨cls, hclass⟩ := exists_serverClass m.name hname
  obtain ⟨hcls, hm⟩ := mem_serverClasses hclass
  refine ⟨[.construct cls], ?_, ?_, fun m' hm' => h.known m' (List.mem_cons_of_mem _ hm'), ?_, h.unstopped, ?_⟩
  · simp [Job.begin, hactive, hclass]
  · intro op hop
    rw [List.mem_singleton.mp hop]
    exact hcls
  · intro cls' hcls' c
    have hcount := h.count cls' hcls' c
    rw [List.map_cons, List.sum_cons, Module.starts] at hcount
    simp only [List.map_nil, List.sum_nil, Nat.add_zero] at hcount
    simp only [List.map_cons, List.map_nil, List.sum_cons, List.sum_nil, Op.starts, Nat.add_zero, hm]
    omega
  · intro cls' hcls' hgateway
    rcases h.running cls' hcls' hgateway with hrunning | ⟨op, hop, hsets⟩ | ⟨m', hm', hname'⟩
    · exact .inl hrunning
    · cases hop
    · rcases List.mem_cons.mp hm' with rfl | hm'
      · refine .inr (.inl ⟨_, List.mem_singleton_self _, ?_⟩)
        exact (serverClass_unique hclass hcls' hname'.symm).symm
      · exact .inr (.inr ⟨m', hm', hname'⟩)

end Booting

/-! ### The modules that are found -/

namespace ModuleMemoryDb.Holds

variable {db : ModuleMemoryDb} {oid : Str → Str} {names : List Str} {name : Str}

/-- A record is created for a new name. -/
theorem create (h : Holds db oid names) (name : Str) :
    Holds (db.createModule (oid name) { name := name, state := .stopped, status := .active }).2 oid
      (names ++ [name]) := by
  have hcreate : (db.createModule (oid name) { name := name, state := .stopped, status := .active }).2 =
      { modules := db.modules.insert (oid name)
          { oid := oid name, name := name, state := .stopped, status := .active } } := by
    simp [createModule, getModuleById]
  rw [hcreate]
  constructor
  · intro key m hget
    rw [OrderedMap.get?_insert] at hget
    split at hget
    · next hkey =>
      cases hget
      exact ⟨by simp, hkey, rfl, rfl⟩
    · obtain ⟨hmem, hrest⟩ := h.mem hget
      exact ⟨List.mem_append_left _ hmem, hrest⟩
  · intro other hother
    rw [OrderedMap.get?_insert]
    split
    · exact ⟨_, rfl⟩
    · next hne =>
      rcases List.mem_append.mp hother with hother | hother
      · exact h.has other hother
      · exact absurd (by rw [List.mem_singleton.mp hother]) hne

/-- A module is set active that is active already. -/
theorem setStatus (h : Holds db oid names) (hname : name ∈ names)
    (hinj : ∀ a ∈ names, oid a = oid name → a = name) :
    Holds (db.setStatus name .active).2 oid names := by
  obtain ⟨m, hfind, -, hstate, -⟩ := h.findModule hname hinj
  rw [ModuleMemoryDb.setStatus, hfind]
  exact h.insert_same (findModule_some hfind).1 rfl hstate rfl

theorem createModules (active : Str → Bool) : ∀ (names done : List Str) {db : ModuleMemoryDb},
    ((done ++ names).map oid).Nodup → Holds db oid done →
      Holds (names.foldl (System.createModule oid active) db) oid (done ++ names)
  | [], done, db, _, h => by rwa [List.append_nil]
  | name :: names, done, db, hnodup, h => by
    have hnew : oid name ∉ done.map oid := by
      rw [List.map_append, List.nodup_append] at hnodup
      exact fun hmem => hnodup.2.2 _ hmem _ (List.mem_map_of_mem List.mem_cons_self) rfl
    have hinj : ∀ a ∈ done ++ [name], oid a = oid name → a = name := by
      intro a ha heq
      rcases List.mem_append.mp ha with ha | ha
      · exact absurd (heq ▸ List.mem_map_of_mem ha) hnew
      · exact List.mem_singleton.mp ha
    have hmissing : db.moduleExists name = false := by
      rw [moduleExists, h.findModule_eq_none fun hmem => hnew (List.mem_map_of_mem hmem)]
      rfl
    have hcreated := h.create name
    rw [List.foldl_cons, ← List.singleton_append, ← List.append_assoc]
    rw [← List.singleton_append, ← List.append_assoc] at hnodup
    refine createModules active names (done ++ [name]) hnodup ?_
    rw [System.createModule, hmissing]
    split
    · exact hcreated.setStatus (by simp) hinj
    · exact hcreated

end ModuleMemoryDb.Holds

/-- A module that is found once is started once. -/
theorem Module.sum_starts (cls : ServerClass) (c : Component) : ∀ {found : List Module},
    (found.map Module.name).Nodup →
    (found.map (Module.starts cls c)).sum = if cls.name ∈ found.map Module.name then cls.startCount c else 0
  | [], _ => by simp
  | m :: found, hnodup => by
    rw [List.map_cons, List.nodup_cons] at hnodup
    rw [List.map_cons, List.sum_cons, sum_starts cls c hnodup.2, List.map_cons, Module.starts]
    by_cases hname : m.name = cls.name
    · simp [← hname, hnodup.1]
    · simp [hname, Ne.symm hname]

section Boot

variable {oid : Str → Str} (active : Str → Bool)

theorem holds_createModules (hoid : (existingModules.map oid).Nodup) :
    ModuleMemoryDb.Holds (System.createModules oid active) oid existingModules :=
  ModuleMemoryDb.Holds.createModules active existingModules [] hoid (.empty oid)

theorem sound_boot (hoid : (existingModules.map oid).Nodup) : (System.boot oid active).modules.Sound := by
  have h := holds_createModules active hoid
  have hfind : ∀ name ∈ existingModules, ∃ m, (System.createModules oid active).findModule name = some (oid name, m) ∧
      m.name = name ∧ m.state = .stopped ∧ m.status = .active := fun name hname =>
    h.findModule hname fun a ha heq => List.inj_on_of_nodup_map hoid ha hname heq
  refine ⟨fun name => ⟨fun hexists => ?_, fun hname => ?_⟩, fun name hname => ?_, nofun, fun _ => nofun⟩
  · by_contra hname
    change ((System.createModules oid active).findModule name).isSome = true at hexists
    rw [h.findModule_eq_none hname] at hexists
    cases hexists
  · obtain ⟨m, hm, -⟩ := hfind name hname
    exact Option.isSome_iff_exists.mpr ⟨_, hm⟩
  · obtain ⟨m, hm, hm', -, hstatus⟩ := hfind name hname
    exact OrderedMap.findIf_isSome.mpr ⟨oid name, m, (ModuleMemoryDb.findModule_some hm).1, by simp [hm', hstatus]⟩

theorem booting_boot (hoid : (existingModules.map oid).Nodup) :
    Booting (System.boot oid active).modules [] (System.createModules oid active).listModules := by
  have h := holds_createModules active hoid
  have hnames : ((System.createModules oid active).listModules.map Module.name).Nodup := by
    have hkeys := OrderedMap.keys_nodup (System.createModules oid active).modules
    have hmap : (System.createModules oid active).modules.entries.map Prod.fst =
        (((System.createModules oid active).listModules).map Module.name).map oid := by
      rw [ModuleMemoryDb.listModules, OrderedMap.values, List.map_map, List.map_map]
      refine List.map_congr_left fun e he => ?_
      exact (h.mem (OrderedMap.get?_eq_some.mpr he)).2.1
    rw [hmap] at hkeys
    exact List.Nodup.of_map oid hkeys
  have hfound : ∀ name ∈ existingModules, name ∈ (System.createModules oid active).listModules.map Module.name := by
    intro name hname
    obtain ⟨m, hget⟩ := h.has name hname
    obtain ⟨hmem, hkey, -⟩ := h.mem hget
    refine List.mem_map.mpr ⟨m, OrderedMap.mem_values.mpr ⟨_, hget⟩, ?_⟩
    exact (List.inj_on_of_nodup_map hoid hname hmem hkey).symm
  refine ⟨by simp, fun m hm => ?_, fun cls hcls c => ?_, fun hshape => ?_, fun cls hcls _ => ?_⟩
  · obtain ⟨key, hget⟩ := OrderedMap.mem_values.mp hm
    exact ⟨(h.mem hget).1, (h.mem hget).2.2.2⟩
  · rw [Module.sum_starts cls c hnames, if_pos (hfound _ (ServerClass.regular hcls).exist)]
    simp [System.boot, Modules.shape]
  · cases hshape
  · obtain ⟨m, hm, hname⟩ := List.mem_map.mp (hfound _ (ServerClass.regular hcls).exist)
    exact .inr (.inr ⟨m, hm, hname⟩)

end Boot

end AwsMock.Manager
