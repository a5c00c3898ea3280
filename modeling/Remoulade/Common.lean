import Mathlib.Data.List.Basic
/-!
# Names, messages and middleware signals used by the RabbitMQ broker

`brokers/rabbitmq.py` imports `dq_name`, `xq_name` and `current_millis` from
`remoulade.common`, `Message` from `remoulade.message`, and the `Broker` base class
(`emit_before`, `emit_after`, `get_actor`, `delay_queues`) from `remoulade.broker`. None of
those files is in the source tree; the parts the adapter reads are modelled here from the
spec, each marked so. The rest of the development uses them only through their names, so
no theorem depends on their bodies beyond what is said here.

| here | there |
| --- | --- |
| `dqName`, `xqName` | `common.dq_name` / `common.xq_name`: `<queue>.DQ`, `<queue>.XQ` (spec §6) |
| `Options`, `Message` | `Message` and its `options` mapping (spec §3) |
| `Message.copy` | copy-with-overrides (spec §9) |
| `Actor`, `getActor` | the actor registry of `Broker` (spec §3) |
| `Signal` | the `before_*` / `after_*` hooks of `Middleware` (middleware.py:71-89) |
| `AMQPError`, `Chan` | `AMQPConnectionError` / `AMQPChannelError` and an `amqpstorm` channel |
-/
namespace Remoulade

/-- `DEAD_MESSAGE_TTL` (rabbitmq.py:29): seven days, in milliseconds. -/
def DEAD_MESSAGE_TTL : Nat := 86400000 * 7

/-- `MAX_ENQUEUE_ATTEMPTS` (rabbitmq.py:33). -/
def MAX_ENQUEUE_ATTEMPTS : Nat := 6

/-- Modelled from the spec: `common.dq_name` is not in the source tree; spec §6 names the
delay queue of `<queue>` `<queue>.DQ`. -/
def dqName (queueName : String) : String := queueName ++ ".DQ"

/-- Modelled from the spec: `common.xq_name` is not in the source tree; spec §6 names the
dead-letter queue of `<queue>` `<queue>.XQ`. -/
def xqName (queueName : String) : String := queueName ++ ".XQ"

/-! ## Messages and actors -/

inductive Value where
  | int (n : Int)
  | str (s : String)
  | bool (b : Bool)
  | null
deriving DecidableEq, Repr

/-- A Python `dict` from option names to values, as an association list. -/
abbrev Options := List (String × Value)

def Options.get (o : Options) (key : String) : Option Value :=
  (o.find? fun p => p.1 == key).map Prod.snd

def Options.update (o new : Options) : Options :=
  new ++ o.filter fun p => !new.any fun q => q.1 == p.1

/-- The fields of a `Message` the broker reads (`args` and `kwargs` only travel in the body). -/
structure Message where
  queueName : String
  actorName : String
  messageId : String
  options : Options
deriving DecidableEq, Repr

/-- Modelled from the spec: `Message.copy` (message.py is not in the source tree), the
copy-with-overrides of spec §9; the given options are merged over the old ones. -/
def Message.copy (m : Message) (queueName : String) (options : Options) : Message :=
  { m with queueName := queueName, options := m.options.update options }

structure Actor where
  actorName : String
  queueName : String
  options : Options
deriving DecidableEq, Repr

/-- Modelled from the spec: `Broker.get_actor` (broker.py is not in the source tree); the
lookup by name that raises `ActorNotFound` when no actor has that name (spec §3). -/
def getActor (actors : List Actor) (actorName : String) : Option Actor :=
  actors.find? fun a => a.actorName == actorName

/-! ## Middleware signals and wire-client failures -/

/-- The hooks the adapter emits: `before_declare_queue` / `after_declare_queue`,
`after_declare_delay_queue`, `before_enqueue` / `after_enqueue`. -/
inductive Signal where
  | declareQueue (queueName : String)
  | declareDelayQueue (queueName : String)
  | enqueue (message : Message) (delay : Option Int)
deriving DecidableEq, Repr

/-- The two wire-client exceptions the adapter catches. -/
inductive AMQPError where
  | connection
  | channel
deriving DecidableEq, Repr

/-- An `amqpstorm` channel: a fresh id, and the connection it was opened on. -/
structure Chan where
  id : Nat
  conn : Nat
deriving DecidableEq, Repr

end Remoulade
