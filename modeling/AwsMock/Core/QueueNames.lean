import AwsMock.Core.AwsUtils

/-!
# Names, ARNs and URLs of queues

Where the converters between the three names of a queue agree. They read two host names, and they tell the
names apart by a prefix and by a substring.
-/

namespace AwsMock

open Lib

/-- A letter, a digit, a hyphen, an underscore or a dot. -/
def isQueueNameByte (c : UInt8) : Bool :=
  65 ≤ c ∧ c ≤ 90 ∨ 97 ≤ c ∧ c ≤ 122 ∨ 48 ≤ c ∧ c ≤ 57 ∨ c = byte '-' ∨ c = byte '_' ∨ c = byte '.'

/-- The names that the service documentation allows, of any length. -/
def ValidQueueName (queueName : Str) : Prop := queueName ≠ [] ∧ ∀ c ∈ queueName, isQueueNameByte c

instance (queueName : Str) : Decidable (ValidQueueName queueName) := inferInstanceAs (Decidable (_ ∧ _))

/-- All converters give the URL of the queue, and no other queue has it. -/
structure QueueNamed (cfg : Configuration) (queueName : Str) : Prop where
  converts : convertSQSQueueArnToUrl cfg (createSQSQueueArn cfg queueName) = createSQSQueueUrl cfg queueName
  name : sanitizeSQSUrl cfg queueName = createSQSQueueUrl cfg queueName
  arn : sanitizeSQSUrl cfg (createSQSQueueArn cfg queueName) = createSQSQueueUrl cfg queueName
  url : sanitizeSQSUrl cfg (createSQSQueueUrl cfg queueName) = createSQSQueueUrl cfg queueName
  distinct : ∀ other, ValidQueueName other → other ≠ queueName →
    sanitizeSQSUrl cfg other ≠ sanitizeSQSUrl cfg queueName

/-- The two host names agree, and the name is not taken for a URL or an ARN. -/
def Nameable (cfg : Configuration) (queueName : Str) : Prop :=
  cfg.sqsHostname = cfg.hostName ∧ isSQSUrl queueName = false ∧ isSQSArn queueName = false

/-- The parts of an ARN are told apart by colons. -/
def Configuration.Plain (cfg : Configuration) : Prop := byte ':' ∉ cfg.region ∧ byte ':' ∉ cfg.accountId

instance (cfg : Configuration) : Decidable cfg.Plain := inferInstanceAs (Decidable (_ ∧ _))

instance (cfg : Configuration) (queueName : Str) : Decidable (Nameable cfg queueName) :=
  inferInstanceAs (Decidable (_ ∧ _ ∧ _))

variable {cfg : Configuration} {queueName : Str}

theorem ValidQueueName.no_colon (h : ValidQueueName queueName) : byte ':' ∉ queueName := by
  intro hin
  have hbyte := h.2 _ hin
  revert hbyte
  decide

/-! ### How a name is classified -/

theorem isSQSUrl_url (cfg : Configuration) (queueName : Str) : isSQSUrl (createSQSQueueUrl cfg queueName) = true := by
  simp only [createSQSQueueUrl, List.append_assoc]
  rfl

theorem isSQSUrl_arn (cfg : Configuration) (queueName : Str) : isSQSUrl (createSQSQueueArn cfg queueName) = false := by
  simp only [createSQSQueueArn, createArn, List.append_assoc]
  rfl

theorem isSQSArn_arn (cfg : Configuration) (queueName : Str) : isSQSArn (createSQSQueueArn cfg queueName) = true := by
  simp only [createSQSQueueArn, createArn, List.append_assoc]
  rfl

theorem colon_mem_url (cfg : Configuration) (queueName : Str) : byte ':' ∈ createSQSQueueUrl cfg queueName := by
  simp only [createSQSQueueUrl, List.append_assoc]
  exact List.mem_append_left _ (by decide)

theorem createSQSQueueUrl_injective (cfg : Configuration) : Function.Injective (createSQSQueueUrl cfg) :=
  fun _ _ h => List.append_cancel_left h

/-- A name that is taken for an ARN has no URL. -/
theorem convertSQSQueueArnToUrl_name (cfg : Configuration) (h : ValidQueueName queueName) :
    convertSQSQueueArnToUrl cfg queueName = [] := by
  rw [convertSQSQueueArnToUrl, split_last h.no_colon h.1]

/-- The three ways to read a valid name. -/
theorem sanitizeSQSUrl_name (cfg : Configuration) (h : ValidQueueName queueName) :
    sanitizeSQSUrl cfg queueName = if isSQSUrl queueName then queueName
      else if isSQSArn queueName then [] else createSQSQueueUrl cfg queueName := by
  rw [sanitizeSQSUrl, convertSQSQueueArnToUrl_name cfg h]

theorem sanitizeSQSUrl_eq_url (h : ValidQueueName queueName) :
    sanitizeSQSUrl cfg queueName = createSQSQueueUrl cfg queueName ↔
      isSQSUrl queueName = false ∧ isSQSArn queueName = false := by
  rw [sanitizeSQSUrl_name cfg h]
  cases hurl : isSQSUrl queueName with
  | true =>
    simp only [if_true, Bool.true_eq_false, false_and, iff_false]
    exact fun heq => h.no_colon (heq ▸ colon_mem_url cfg queueName)
  | false =>
    cases isSQSArn queueName with
    | true =>
      simp only [Bool.false_eq_true, if_false, if_true, Bool.true_eq_false, and_false, iff_false]
      exact fun heq => List.ne_nil_of_mem (colon_mem_url cfg queueName) heq.symm
    | false => simp

/-- No other name is read as the URL of a queue. -/
theorem sanitizeSQSUrl_ne_url {other : Str} (h : ValidQueueName other) (hne : other ≠ queueName) :
    sanitizeSQSUrl cfg other ≠ createSQSQueueUrl cfg queueName := by
  rw [sanitizeSQSUrl_name cfg h]
  split
  · exact fun heq => h.no_colon (heq ▸ colon_mem_url cfg queueName)
  · split
    · exact fun heq => List.ne_nil_of_mem (colon_mem_url cfg queueName) heq.symm
    · exact fun heq => hne (createSQSQueueUrl_injective cfg heq)

/-! ### The hosts -/

theorem converts_iff (hcfg : cfg.Plain) (h : ValidQueueName queueName) :
    convertSQSQueueArnToUrl cfg (createSQSQueueArn cfg queueName) = createSQSQueueUrl cfg queueName ↔
      cfg.sqsHostname = cfg.hostName := by
  constructor
  · intro heq
    rw [convertSQSQueueArnToUrl, split_createSQSQueueArn cfg hcfg.1 hcfg.2 h.no_colon h.1, createSQSQueueUrl] at heq
    simpa only [List.append_assoc, List.append_cancel_left_eq, List.append_cancel_right_eq] using heq
  · exact fun hhost => convertSQSQueueArnToUrl_create cfg hhost hcfg.1 hcfg.2 h.no_colon h.1

theorem sanitizeSQSUrl_arn (cfg : Configuration) (queueName : Str) :
    sanitizeSQSUrl cfg (createSQSQueueArn cfg queueName) =
      convertSQSQueueArnToUrl cfg (createSQSQueueArn cfg queueName) := by
  rw [sanitizeSQSUrl, isSQSUrl_arn, isSQSArn_arn]
  rfl

theorem sanitizeSQSUrl_url (cfg : Configuration) (queueName : Str) :
    sanitizeSQSUrl cfg (createSQSQueueUrl cfg queueName) = createSQSQueueUrl cfg queueName := by
  rw [sanitizeSQSUrl, isSQSUrl_url]
  rfl

/-! ### The result -/

/-- The names of a queue agree when the two host names do and the name neither starts with `http` nor contains
    `arn`; and where region and account have no colon, only then. -/
theorem queueNamed_iff (cfg : Configuration) (queueName : Str) (h : ValidQueueName queueName) :
    (cfg.Plain ∧ Nameable cfg queueName → QueueNamed cfg queueName) ∧
    (QueueNamed cfg queueName → isSQSUrl queueName = false ∧ isSQSArn queueName = false ∧
      (cfg.Plain → cfg.sqsHostname = cfg.hostName)) := by
  constructor
  · rintro ⟨hcfg, hhost, hname⟩
    have hurl := (@sanitizeSQSUrl_eq_url cfg _ h).mpr hname
    have hconverts := (converts_iff hcfg h).mpr hhost
    exact {
      converts := hconverts
      name := hurl
      arn := (sanitizeSQSUrl_arn cfg queueName).trans hconverts
      url := sanitizeSQSUrl_url cfg queueName
      distinct := fun other hother hne => hurl ▸ sanitizeSQSUrl_ne_url hother hne }
  · intro hnamed
    obtain ⟨hurl, harn⟩ := (sanitizeSQSUrl_eq_url h).mp hnamed.name
    exact ⟨hurl, harn, fun hcfg => (converts_iff hcfg h).mp hnamed.converts⟩

/-- An installation whose host name is the one of the configuration. -/
theorem queueNamed_orders : QueueNamed { hostName := str "localstack" } (str "orders") :=
  (queueNamed_iff { hostName := str "localstack" } (str "orders") (by decide +kernel)).1 ⟨by decide +kernel, by decide⟩

/-- On another host the ARN of a queue converts to another URL, and the names `learn` and `warning` are both read
    as ARNs without a URL. -/
theorem queueNamed_fails : ¬ QueueNamed { hostName := str "build" } (str "orders") ∧
    ¬ QueueNamed { hostName := str "localstack" } (str "learn") ∧
    sanitizeSQSUrl { hostName := str "localstack" } (str "learn") =
      sanitizeSQSUrl { hostName := str "localstack" } (str "warning") := by
  refine ⟨fun h => absurd h.converts (by decide), fun h => absurd h.name (by decide), by decide⟩

end AwsMock
