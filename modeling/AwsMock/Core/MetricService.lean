import Mathlib.Algebra.Ring.Int.Defs
import Mathlib.Data.List.Induction
import Mathlib.Logic.Function.Basic
import AwsMock.Core.Poco

/-!
# Metrics

The counters and gauges of `MetricService` over the Prometheus library of Poco. A name has one counter and one gauge,
whose label names are those of its first use.
-/

namespace AwsMock.Monitoring

open Lib

/-! ### The library -/

/-- `Poco::Prometheus::Counter` or `Gauge`: a metric with label names, and a sample for every list of label values, which
    is made when it is first used. -/
structure MetricClass (α : Type) [Zero α] [Add α] where
  Metric : Type
  create : List Str → Metric
  clear : Metric → Metric
  labelNames : Metric → List Str
  value : Metric → List Str → α
  /-- `labels(values).inc(n)`. -/
  inc : Metric → List Str → α → Except Error Metric
  /-- The increments that are not refused. -/
  Takes : α → Prop
  labelNames_create : ∀ names, labelNames (create names) = names
  value_create : ∀ names values, value (create names) values = 0
  labelNames_clear : ∀ m, labelNames (clear m) = labelNames m
  value_clear : ∀ m values, value (clear m) values = 0
  inc_takes : ∀ m {values n}, Takes n → values.length = (labelNames m).length → ∃ m', inc m values n = .ok m' ∧
    labelNames m' = labelNames m ∧ value m' = Function.update (value m) values (value m values + n)

/-- Counters, gauges and the default registry, in which a metric is entered under its name when it is made. -/
structure Prometheus (α : Type) [Zero α] [Add α] where
  ofInt : Int → α
  counter : MetricClass α
  gauge : MetricClass α
  gauge_takes : ∀ n, gauge.Takes n
  /-- `labels(values).set(n)`. -/
  set : gauge.Metric → List Str → α → Except Error gauge.Metric
  set_sets : ∀ m {values} (n : α), values.length = (gauge.labelNames m).length → ∃ m', set m values n = .ok m' ∧
    gauge.labelNames m' = gauge.labelNames m ∧ gauge.value m' = Function.update (gauge.value m) values n
  Registry : Type
  register : Registry → Str → Except Error Registry
  /-- The names that can be entered. -/
  Free : Registry → Str → Prop
  register_free : ∀ {r name}, Free r name → ∃ r', register r name = .ok r' ∧
    ∀ name', Free r' name' ↔ name' ≠ name ∧ Free r name'

/-! ### The service -/

variable {α : Type} [Zero α] [Add α]

structure MetricService (lib : Prometheus α) where
  registry : lib.Registry
  counterMap : OrderedMap Str lib.counter.Metric := ∅
  gaugeMap : OrderedMap Str lib.gauge.Metric := ∅

/-- `CounterExists` and `GaugeExists` with a label: the value of the label does not matter. -/
def hasLabel {cls : MetricClass α} (metrics : OrderedMap Str cls.Metric) (name labelName : Str) : Bool :=
  (metrics.get? name).any fun metric => decide (labelName ∈ cls.labelNames metric)

/-- What is done to the metric of a name; it is undefined without one. -/
def modify {M : Type} (metrics : OrderedMap Str M) (name : Str) (f : M → Except Error M) :
    Option (Except Error Unit × OrderedMap Str M) :=
  (metrics.get? name).map fun metric =>
    match f metric with
    | .ok metric => (.ok (), metrics.insert name metric)
    | .error e => (.error e, metrics)

namespace MetricService

variable {lib : Prometheus α}

/-- `AddCounter`, which catches what the library throws. -/
def addCounter (s : MetricService lib) (name : Str) : MetricService lib :=
  if (s.counterMap.get? name).isSome then s
  else
    match lib.register s.registry name with
    | .ok registry => { s with registry := registry,
                               counterMap := s.counterMap.insert name (lib.counter.clear (lib.counter.create [])) }
    | .error _ => s

def addCounterLabelled (s : MetricService lib) (name labelName : Str) : MetricService lib :=
  if hasLabel s.counterMap name labelName then s
  else
    match lib.register s.registry name with
    | .ok registry => { s with registry := registry,
                               counterMap := s.counterMap.insert name (lib.counter.create [labelName]) }
    | .error _ => s

/-- `AddGauge`, which does not. -/
def addGauge (s : MetricService lib) (name : Str) : Except Error (MetricService lib) :=
  if (s.gaugeMap.get? name).isSome then .ok s
  else (lib.register s.registry name).map fun registry =>
    { s with registry := registry, gaugeMap := s.gaugeMap.insert name (lib.gauge.clear (lib.gauge.create [])) }

/-- With a label, any gauge of the name is enough. -/
def addGaugeLabelled (s : MetricService lib) (name labelName : Str) : Except Error (MetricService lib) :=
  if (s.gaugeMap.get? name).isSome then .ok s
  else (lib.register s.registry name).map fun registry =>
    { s with registry := registry, gaugeMap := s.gaugeMap.insert name (lib.gauge.create [labelName]) }

/-- What is done to a counter. -/
def modifyCounter (s : MetricService lib) (name : Str) (f : lib.counter.Metric → Except Error lib.counter.Metric) :
    Option (Except Error Unit × MetricService lib) :=
  (modify s.counterMap name f).map fun r => (r.1, { s with counterMap := r.2 })

/-- What is done to a gauge, once there is one. -/
def modifyGauge (s : MetricService lib) (added : Except Error (MetricService lib)) (name : Str)
    (f : lib.gauge.Metric → Except Error lib.gauge.Metric) : Option (Except Error Unit × MetricService lib) :=
  match added with
  | .ok s => (modify s.gaugeMap name f).map fun r => (r.1, { s with gaugeMap := r.2 })
  | .error e => some (.error e, s)

def incrementCounter (s : MetricService lib) (name : Str) (value : Int) :
    Option (Except Error Unit × MetricService lib) :=
  let s := if (s.counterMap.get? name).isSome then s else s.addCounter name
  s.modifyCounter name fun counter => lib.counter.inc counter [] (lib.ofInt value)

def incrementCounterLabelled (s : MetricService lib) (name labelName labelValue : Str) (value : Int) :
    Option (Except Error Unit × MetricService lib) :=
  let s := if hasLabel s.counterMap name labelName then s else s.addCounterLabelled name labelName
  s.modifyCounter name fun counter => lib.counter.inc counter [labelValue] (lib.ofInt value)

def setGauge (s : MetricService lib) (name : Str) (value : α) : Option (Except Error Unit × MetricService lib) :=
  s.modifyGauge (if (s.gaugeMap.get? name).isSome then .ok s else s.addGauge name) name fun gauge =>
    lib.set gauge [] value

/-- The value is added to that of the gauge. -/
def setGaugeLabelled (s : MetricService lib) (name labelName labelValue : Str) (value : α) :
    Option (Except Error Unit × MetricService lib) :=
  s.modifyGauge (if hasLabel s.gaugeMap name labelName then .ok s else s.addGaugeLabelled name labelName) name
    fun gauge => lib.gauge.inc gauge [labelValue] value

end MetricService

/-! ### What is recorded -/

/-- A call of the service, with or without the name and the value of a label. -/
inductive MetricCall (α : Type) where
  | incrementCounter (name : Str) (label : Option (Str × Str)) (value : Int)
  | setGauge (name : Str) (label : Option (Str × Str)) (value : α)

/-- A name and a label. -/
abbrev MetricKey := Str × Option (Str × Str)

/-- The label names of a metric for a label. -/
def namesOf (label : Option (Str × Str)) : List Str := (label.map Prod.fst).toList

def valuesOf (label : Option (Str × Str)) : List Str := (label.map Prod.snd).toList

/-- The value of a metric under a name and a label, 0 where there is none. -/
def reading (cls : MetricClass α) (metrics : OrderedMap Str cls.Metric) (key : MetricKey) : α :=
  match metrics.get? key.1 with
  | some metric => if cls.labelNames metric = namesOf key.2 then cls.value metric (valuesOf key.2) else 0
  | none => 0

section Library

variable {cls : MetricClass α} {metrics metrics' : OrderedMap Str cls.Metric} {name : Str} {label : Option (Str × Str)}
  {metric metric' : cls.Metric}

theorem label_ext {label' : Option (Str × Str)} (hnames : namesOf label = namesOf label')
    (hvalues : valuesOf label = valuesOf label') : label = label' := by
  rcases label with _ | ⟨labelName, labelValue⟩ <;> rcases label' with _ | ⟨labelName', labelValue'⟩
  · rfl
  · cases hnames
  · cases hnames
  · cases hnames
    cases hvalues
    rfl

theorem length_valuesOf (label : Option (Str × Str)) : (valuesOf label).length = (namesOf label).length := by
  cases label <;> rfl

/-- A metric that stands for all that was read under a name. -/
structure Ready (metrics metrics' : OrderedMap Str cls.Metric) (name : Str) (label : Option (Str × Str))
    (metric : cls.Metric) : Prop where
  stored : metrics'.get? name = some metric
  labels : cls.labelNames metric = namesOf label
  same : ∀ label', reading cls metrics (name, label') =
    if namesOf label = namesOf label' then cls.value metric (valuesOf label') else 0
  others : ∀ name', name' ≠ name → metrics'.get? name' = metrics.get? name'

theorem ready_existing (hstored : metrics.get? name = some metric) (hlabels : cls.labelNames metric = namesOf label) :
    Ready metrics metrics name label metric where
  stored := hstored
  labels := hlabels
  same label' := by
    simp only [reading, hstored, hlabels]
  others _ _ := rfl

theorem ready_new (hnone : metrics.get? name = none) (hlabels : cls.labelNames metric = namesOf label)
    (hzero : ∀ values, cls.value metric values = 0) :
    Ready metrics (metrics.insert name metric) name label metric where
  stored := OrderedMap.get?_insert_self ..
  labels := hlabels
  same label' := by
    simp only [reading, hnone, hzero, ite_self]
  others _ hne := OrderedMap.get?_insert_of_ne _ _ hne

/-- What is read when the value of one sample has been changed. -/
theorem Ready.reading_insert {x : α} (h : Ready metrics metrics' name label metric)
    (hlabels : cls.labelNames metric' = cls.labelNames metric)
    (hvalue : cls.value metric' = Function.update (cls.value metric) (valuesOf label) x) (key : MetricKey) :
    reading cls (metrics'.insert name metric') key = if key = (name, label) then x else reading cls metrics key := by
  obtain ⟨name', label'⟩ := key
  by_cases hname : name' = name
  · subst hname
    rw [h.same label', reading, OrderedMap.get?_insert_self]
    simp only [hlabels, h.labels, Prod.mk.injEq, true_and]
    by_cases hlabel : label' = label
    · subst hlabel
      simp [hvalue]
    · rw [if_neg hlabel]
      by_cases hnames : namesOf label = namesOf label'
      · have hvalues : valuesOf label' ≠ valuesOf label := fun heq => hlabel (label_ext hnames.symm heq)
        rw [if_pos hnames, if_pos hnames, hvalue, Function.update_of_ne hvalues]
      · rw [if_neg hnames, if_neg hnames]
  · have hne : (name', label') ≠ (name, label) := fun heq => hname (Prod.mk.inj heq).1
    rw [if_neg hne, reading, reading, OrderedMap.get?_insert_of_ne _ _ hname, h.others name' hname]

theorem Ready.modify {f : cls.Metric → Except Error cls.Metric} (h : Ready metrics metrics' name label metric)
    (hf : f metric = .ok metric') : modify metrics' name f = some (.ok (), metrics'.insert name metric') := by
  rw [Monitoring.modify, h.stored]
  simp only [Option.map_some, hf]

end Library

variable {lib : Prometheus α}

/-- A call, with the state that it leaves whether or not it throws. -/
def MetricCall.perform : MetricCall α → MetricService lib → Option (Except Error Unit × MetricService lib)
  | incrementCounter name none value, s => s.incrementCounter name value
  | incrementCounter name (some label) value, s => s.incrementCounterLabelled name label.1 label.2 value
  | setGauge name none value, s => s.setGauge name value
  | setGauge name (some label) value, s => s.setGaugeLabelled name label.1 label.2 value

/-- One call after the other. -/
def performAll : List (MetricCall α) → MetricService lib → Option (MetricService lib)
  | [], s => some s
  | call :: calls, s => (call.perform s).bind fun r => performAll calls r.2

/-- The sum of the increments of a counter. -/
def counted (lib : Prometheus α) (calls : List (MetricCall α)) (key : MetricKey) : α :=
  calls.foldl (fun sum call =>
    match call with
    | .incrementCounter name label value => if key = (name, label) then sum + lib.ofInt value else sum
    | .setGauge .. => sum) 0

/-- The value that a gauge was last set to. -/
def lastSet (calls : List (MetricCall α)) (key : MetricKey) : Option α :=
  calls.foldl (fun last call =>
    match call with
    | .setGauge name label value => if key = (name, label) then some value else last
    | .incrementCounter .. => last) none

/-- Counters show the sums of their increments, and gauges the values that they were last set to. -/
structure Recorded (calls : List (MetricCall α)) (s : MetricService lib) : Prop where
  counters : ∀ key, reading lib.counter s.counterMap key = counted lib calls key
  gauges : ∀ key value, lastSet calls key = some value → reading lib.gauge s.gaugeMap key = value

/-- The metric of a name has the label names of a label, or the name can be entered. -/
def Fits (s : MetricService lib) {cls : MetricClass α} (metrics : OrderedMap Str cls.Metric) (name : Str)
    (label : Option (Str × Str)) : Prop :=
  match metrics.get? name with
  | some metric => cls.labelNames metric = namesOf label
  | none => lib.Free s.registry name

/-- When a call is recorded: its name is used with one label name only, a counter takes the increment, and to set a
    gauge with a label to a value is to add the value. -/
def MetricCall.Suits : MetricCall α → MetricService lib → Prop
  | incrementCounter name label value, s => Fits s s.counterMap name label ∧ lib.counter.Takes (lib.ofInt value)
  | setGauge name label value, s => Fits s s.gaugeMap name label ∧
    (label ≠ none → reading lib.gauge s.gaugeMap (name, label) + value = value)

/-! ### One call -/

variable {s : MetricService lib} {name : Str} {label : Option (Str × Str)}

theorem hasLabel_of_labels {cls : MetricClass α} {metrics : OrderedMap Str cls.Metric} {metric : cls.Metric}
    {l : Str × Str} (hstored : metrics.get? name = some metric) (hlabels : cls.labelNames metric = namesOf (some l)) :
    hasLabel metrics name l.1 = true := by
  rw [hasLabel, hstored, Option.any_some, hlabels]
  simp [namesOf]

theorem hasLabel_none {cls : MetricClass α} {metrics : OrderedMap Str cls.Metric} (hnone : metrics.get? name = none)
    (labelName : Str) : hasLabel metrics name labelName = false := by
  rw [hasLabel, hnone]
  rfl

/-- The counter that a call finds or makes. -/
theorem counter_ready (hfits : Fits s s.counterMap name label) :
    ∃ (s' : MetricService lib) (metric : lib.counter.Metric),
    Ready s.counterMap s'.counterMap name label metric ∧ s'.gaugeMap = s.gaugeMap ∧
      ∀ value, (MetricCall.incrementCounter name label value).perform s =
        s'.modifyCounter name fun counter => lib.counter.inc counter (valuesOf label) (lib.ofInt value) := by
  rw [Fits] at hfits
  rcases hstored : s.counterMap.get? name with _ | metric
  · rw [hstored] at hfits
    obtain ⟨registry, hregister, -⟩ := lib.register_free hfits
    cases label with
    | none =>
      have hzero := lib.counter.value_clear (lib.counter.create [])
      have hlabels := (lib.counter.labelNames_clear _).trans (lib.counter.labelNames_create [])
      refine ⟨{ s with registry := registry, counterMap := _ }, _, ready_new hstored hlabels hzero, rfl,
        fun value => ?_⟩
      rw [MetricCall.perform, MetricService.incrementCounter, MetricService.addCounter, hstored]
      simp only [Option.isSome_none, Bool.false_eq_true, if_false, hregister]
      rfl
    | some l =>
      have hzero := lib.counter.value_create [l.1]
      have hlabels := lib.counter.labelNames_create [l.1]
      refine ⟨{ s with registry := registry, counterMap := _ }, _, ready_new hstored hlabels hzero, rfl,
        fun value => ?_⟩
      rw [MetricCall.perform, MetricService.incrementCounterLabelled, MetricService.addCounterLabelled,
        hasLabel_none hstored]
      simp only [Bool.false_eq_true, if_false, hregister]
      rfl
  · rw [hstored] at hfits
    refine ⟨s, metric, ready_existing hstored hfits, rfl, fun value => ?_⟩
    cases label with
    | none =>
      rw [MetricCall.perform, MetricService.incrementCounter, hstored]
      rfl
    | some l =>
      rw [MetricCall.perform, MetricService.incrementCounterLabelled, hasLabel_of_labels hstored hfits]
      rfl

/-- A counter that fits is incremented, and nothing else changes. -/
theorem incrementCounter_run {value : Int} (hfits : Fits s s.counterMap name label)
    (htakes : lib.counter.Takes (lib.ofInt value)) :
    ∃ s' : MetricService lib, (MetricCall.incrementCounter name label value).perform s = some (.ok (), s') ∧
      s'.gaugeMap = s.gaugeMap ∧
      ∀ key, reading lib.counter s'.counterMap key =
        if key = (name, label) then reading lib.counter s.counterMap (name, label) + lib.ofInt value
        else reading lib.counter s.counterMap key := by
  obtain ⟨s', metric, hready, hgauges, hperform⟩ := counter_ready hfits
  have hlength : (valuesOf label).length = (lib.counter.labelNames metric).length := by
    rw [hready.labels, length_valuesOf]
  obtain ⟨metric', hinc, hlabels, hvalue⟩ := lib.counter.inc_takes metric htakes hlength
  refine ⟨{ s' with counterMap := s'.counterMap.insert name metric' }, ?_, hgauges, fun key => ?_⟩
  · rw [hperform, MetricService.modifyCounter, hready.modify hinc]
    rfl
  · rw [hready.reading_insert hlabels hvalue, hready.same label, if_pos rfl]

/-- What a call does to a gauge: it is set, or with a label the value is added. -/
def gaugeChange (lib : Prometheus α) (label : Option (Str × Str)) (value : α) (gauge : lib.gauge.Metric) :
    Except Error lib.gauge.Metric :=
  match label with
  | none => lib.set gauge [] value
  | some l => lib.gauge.inc gauge [l.2] value

/-- The gauge that a call finds or makes. -/
theorem gauge_ready (hfits : Fits s s.gaugeMap name label) :
    ∃ (s' : MetricService lib) (metric : lib.gauge.Metric),
    Ready s.gaugeMap s'.gaugeMap name label metric ∧ s'.counterMap = s.counterMap ∧
      ∀ value, (MetricCall.setGauge name label value).perform s =
        s.modifyGauge (.ok s') name (gaugeChange lib label value) := by
  rw [Fits] at hfits
  rcases hstored : s.gaugeMap.get? name with _ | metric
  · rw [hstored] at hfits
    obtain ⟨registry, hregister, -⟩ := lib.register_free hfits
    cases label with
    | none =>
      have hzero := lib.gauge.value_clear (lib.gauge.create [])
      have hlabels := (lib.gauge.labelNames_clear _).trans (lib.gauge.labelNames_create [])
      refine ⟨{ s with registry := registry, gaugeMap := _ }, _, ready_new hstored hlabels hzero, rfl,
        fun value => ?_⟩
      rw [MetricCall.perform, MetricService.setGauge, MetricService.addGauge, hstored]
      simp only [Option.isSome_none, Bool.false_eq_true, if_false, hregister]
      rfl
    | some l =>
      have hzero := lib.gauge.value_create [l.1]
      have hlabels := lib.gauge.labelNames_create [l.1]
      refine ⟨{ s with registry := registry, gaugeMap := _ }, _, ready_new hstored hlabels hzero, rfl,
        fun value => ?_⟩
      rw [MetricCall.perform, MetricService.setGaugeLabelled, MetricService.addGaugeLabelled, hasLabel_none hstored,
        hstored]
      simp only [Option.isSome_none, Bool.false_eq_true, if_false, hregister]
      rfl
  · rw [hstored] at hfits
    refine ⟨s, metric, ready_existing hstored hfits, rfl, fun value => ?_⟩
    cases label with
    | none =>
      rw [MetricCall.perform, MetricService.setGauge, hstored]
      rfl
    | some l =>
      rw [MetricCall.perform, MetricService.setGaugeLabelled, hasLabel_of_labels hstored hfits]
      rfl

/-- A gauge that fits shows its value, and nothing else changes. -/
theorem setGauge_run {value : α} (hfits : Fits s s.gaugeMap name label)
    (hadded : label ≠ none → reading lib.gauge s.gaugeMap (name, label) + value = value) :
    ∃ s' : MetricService lib, (MetricCall.setGauge name label value).perform s = some (.ok (), s') ∧
      s'.counterMap = s.counterMap ∧
      ∀ key, reading lib.gauge s'.gaugeMap key =
        if key = (name, label) then value else reading lib.gauge s.gaugeMap key := by
  obtain ⟨s', metric, hready, hcounters, hperform⟩ := gauge_ready hfits
  have hlength : (valuesOf label).length = (lib.gauge.labelNames metric).length := by
    rw [hready.labels, length_valuesOf]
  have hsame : reading lib.gauge s.gaugeMap (name, label) = lib.gauge.value metric (valuesOf label) := by
    rw [hready.same label, if_pos rfl]
  have hchange : ∃ metric', gaugeChange lib label value metric = .ok metric' ∧
      lib.gauge.labelNames metric' = lib.gauge.labelNames metric ∧
      lib.gauge.value metric' = Function.update (lib.gauge.value metric) (valuesOf label) value := by
    cases label with
    | none => exact lib.set_sets metric value hlength
    | some l =>
      obtain ⟨metric', hinc, hlabels, hvalue⟩ := lib.gauge.inc_takes metric (lib.gauge_takes value) hlength
      rw [← hsame, hadded (Option.some_ne_none _)] at hvalue
      exact ⟨metric', hinc, hlabels, hvalue⟩
  obtain ⟨metric', hmetric, hlabels, hvalue⟩ := hchange
  refine ⟨{ s' with gaugeMap := s'.gaugeMap.insert name metric' }, ?_, hcounters,
    hready.reading_insert hlabels hvalue⟩
  rw [hperform]
  simp only [MetricService.modifyGauge, hready.modify hmetric, Option.map_some]

/-! ### All calls -/

variable {calls : List (MetricCall α)}

/-- The service before the first call. -/
def MetricService.initial (lib : Prometheus α) (registry : lib.Registry) : MetricService lib where
  registry := registry

theorem recorded_initial (registry : lib.Registry) : Recorded [] (MetricService.initial lib registry) where
  counters _ := rfl
  gauges _ _ h := by cases h

/-- A call that suits returns, and all values are right after it. -/
theorem Recorded.perform {call : MetricCall α} (h : Recorded calls s) (hsuits : call.Suits s) :
    ∃ s', call.perform s = some (.ok (), s') ∧ Recorded (calls ++ [call]) s' := by
  cases call with
  | incrementCounter name label value =>
    obtain ⟨s', hrun, hgauges, hcounters⟩ := incrementCounter_run hsuits.1 hsuits.2
    refine ⟨s', hrun, ⟨fun key => ?_, fun key value hlast => ?_⟩⟩
    · rw [hcounters, counted, List.foldl_append]
      by_cases hkey : key = (name, label)
      · subst hkey
        rw [if_pos rfl, h.counters]
        exact (if_pos rfl).symm
      · rw [if_neg hkey, h.counters]
        exact (if_neg hkey).symm
    · rw [lastSet, List.foldl_append] at hlast
      rw [hgauges]
      exact h.gauges key value hlast
  | setGauge name label value =>
    obtain ⟨s', hrun, hcounters, hgauges⟩ := setGauge_run hsuits.1 hsuits.2
    refine ⟨s', hrun, ⟨fun key => ?_, fun key last hlast => ?_⟩⟩
    · rw [hcounters, counted, List.foldl_append]
      exact h.counters key
    · rw [lastSet, List.foldl_append] at hlast
      simp only [List.foldl_cons, List.foldl_nil] at hlast
      rw [hgauges]
      by_cases hkey : key = (name, label)
      · rw [if_pos hkey] at hlast ⊢
        exact Option.some.inj hlast
      · rw [if_neg hkey] at hlast ⊢
        exact h.gauges key last hlast

theorem performAll_concat (calls : List (MetricCall α)) (call : MetricCall α) (s : MetricService lib) :
    performAll (calls ++ [call]) s = (performAll calls s).bind fun s => (call.perform s).map Prod.snd := by
  induction calls generalizing s with
  | nil =>
    rw [List.nil_append, performAll, performAll, Option.bind_some]
    cases call.perform s <;> rfl
  | cons first calls ih =>
    rw [List.cons_append, performAll, performAll, Option.bind_assoc]
    exact congrArg _ (funext fun r => ih r.2)

/-- When every call suits the state that it is made in, all values are right in every state. -/
theorem metrics_recorded (lib : Prometheus α) (registry : lib.Registry) (calls : List (MetricCall α))
    (hsuits : ∀ done call s, done ++ [call] <+: calls → performAll done (.initial lib registry) = some s →
      call.Suits s) :
    ∀ done, done <+: calls → ∃ s, performAll done (.initial lib registry) = some s ∧ Recorded done s := by
  intro done hdone
  induction done using List.reverseRecOn with
  | nil => exact ⟨_, rfl, recorded_initial registry⟩
  | append_singleton done call ih =>
    obtain ⟨s, hrun, hrecorded⟩ := ih ((List.prefix_append done [call]).trans hdone)
    obtain ⟨s', hperform, hrecorded'⟩ := hrecorded.perform (hsuits done call s hdone hrun)
    refine ⟨s', ?_, hrecorded'⟩
    rw [performAll_concat, hrun, Option.bind_some, hperform]
    rfl

/-! ### A library -/

/-- A metric is its label names and its values. -/
def sampleClass (takes : Int → Bool) : MetricClass Int where
  Metric := List Str × (List Str → Int)
  create names := (names, fun _ => 0)
  clear m := (m.1, fun _ => 0)
  labelNames m := m.1
  value m := m.2
  inc m values n :=
    if takes n = true ∧ values.length = m.1.length then .ok (m.1, Function.update m.2 values (m.2 values + n))
    else .error (.pocoException [])
  Takes n := takes n = true
  labelNames_create _ := rfl
  value_create _ _ := rfl
  labelNames_clear _ := rfl
  value_clear _ _ := rfl
  inc_takes _ _ _ htakes hlength := ⟨_, if_pos ⟨htakes, hlength⟩, rfl, rfl⟩

/-- Counters take no negative increments, and a name can be entered once. -/
def Prometheus.sample : Prometheus Int where
  ofInt := id
  counter := sampleClass fun n => decide (0 ≤ n)
  gauge := sampleClass fun _ => true
  gauge_takes _ := rfl
  set m values n :=
    if values.length = m.1.length then .ok (m.1, Function.update m.2 values n) else .error (.pocoException [])
  set_sets _ _ _ hlength := ⟨_, if_pos hlength, rfl, rfl⟩
  Registry := List Str
  register names name := if name ∈ names then .error (.pocoException name) else .ok (name :: names)
  Free names name := name ∉ names
  register_free {_ _} hfree := ⟨_, if_neg hfree, fun _ => by rw [List.mem_cons, not_or]⟩

/-- A counter with a label is incremented once. -/
theorem metrics_recorded_sample :
    ∃ s, performAll [(.incrementCounter [99] (some ([108], [118])) 1 : MetricCall Int)] (.initial .sample []) = some s ∧
      Recorded [(.incrementCounter [99] (some ([108], [118])) 1 : MetricCall Int)] s := by
  refine metrics_recorded .sample [] [.incrementCounter [99] (some ([108], [118])) 1] (fun done call s hdone hrun => ?_) _
    (List.prefix_refl _)
  rcases done with _ | ⟨first, done⟩
  · obtain ⟨rfl, -⟩ := List.cons_prefix_cons.mp hdone
    cases hrun
    exact ⟨List.not_mem_nil, rfl⟩
  · have hlength := hdone.length_le
    simp at hlength

/-- A gauge with a label is set twice, and shows the sum. -/
theorem gauge_adds : ¬ (∀ (lib : Prometheus Int) (registry : lib.Registry) (calls : List (MetricCall Int)),
    ∃ s, performAll calls (.initial lib registry) = some s ∧ Recorded calls s) := by
  intro h
  obtain ⟨s, hrun, hrecorded⟩ := h .sample []
    [.setGauge [103] (some ([108], [118])) 5, .setGauge [103] (some ([108], [118])) 3]
  have hlast := hrecorded.gauges ([103], some ([108], [118])) 3 rfl
  cases hrun
  exact absurd hlast (by decide)

end AwsMock.Monitoring
