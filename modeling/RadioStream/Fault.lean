import RadioStream.Decimal.Shortest
import RadioStream.Iq.Format
import RadioStream.Limits
import RadioStream.Tick

/-!
Causes of failed calls and their wording. Overruns, underruns and losses are no
failures; they are counted.
-/
namespace RadioStream

inductive Direction where
  /-- Hardware to host. -/
  | rx
  /-- Host to hardware. -/
  | tx
deriving DecidableEq

def Direction.name : Direction → String
  | rx => "RX"
  | tx => "TX"

inductive Phase where
  | idle
  /-- Queues exist, the link is not armed. -/
  | configured
  | running
  /-- Ended by the caller, the status monitor or a failure. -/
  | stopped
deriving DecidableEq

def Phase.name : Phase → String
  | idle => "Idle"
  | configured => "Configured"
  | running => "Running"
  | stopped => "Stopped"

inductive Clock where
  | reference
  | sxr
  | sxt
  | cgen
  /-- Receive signal processor, a quarter of `cgen`. -/
  | rxTsp
  /-- Transmit signal processor, a quarter of `cgen`. -/
  | txTsp
deriving DecidableEq

namespace Clock

def name : Clock → String
  | reference => "Reference"
  | sxr => "Sxr"
  | sxt => "Sxt"
  | cgen => "Cgen"
  | rxTsp => "RxTsp"
  | txTsp => "TxTsp"

def all : List Clock := [reference, sxr, sxt, cgen, rxTsp, txTsp]

def ofName? (text : String) : Option Clock := all.find? (·.name == text)

/-- Derived clocks cannot be set. -/
def isReadOnly : Clock → Bool
  | rxTsp | txTsp => true
  | _ => false

end Clock

/-- Board functions that a front end may lack. -/
inductive BoardFeature where
  | gpioWrite
  | gpioRead
  | gpioDirWrite
  | gpioDirRead
  | parameterWrite
  | parameterRead
deriving DecidableEq

def BoardFeature.name : BoardFeature → String
  | gpioWrite => "gpio_write"
  | gpioRead => "gpio_read"
  | gpioDirWrite => "gpio_dir_write"
  | gpioDirRead => "gpio_dir_read"
  | parameterWrite => "custom_parameter_write"
  | parameterRead => "custom_parameter_read"

/-- Why a configuration is refused. -/
inductive ConfigFault where
  /-- The text is not JSON or does not fit the record. -/
  | unreadable
  | unknownFormat (text : String)
  | noChannels
  | tooManyChannels (direction : Direction) (count : Nat)
  | channelOutOfRange (direction : Direction) (channel available : UInt8)
  | channelRepeated (direction : Direction) (channel : UInt8)
  | invalidRate (rate : Single)
  | batchTooLarge (direction : Direction) (batch capacity : Nat)
  | tooManyChannelConfigs (count : Nat)
  | channelNotOnModule (index : Nat) (module : UInt8) (available : Nat)
  | readOnlyClock (clock : Clock)
  | tooManyModules (count : Nat)
deriving DecidableEq

def ConfigFault.message : ConfigFault → String
  | unreadable => "<json>"
  | unknownFormat text => s!"Unknown sample format \"{text}\", expected i16, i12 or f32."
  | noChannels => "At least one RX or TX channel is required."
  | tooManyChannels direction count =>
    s!"{count} {direction.name} channels requested, at most {Limits.channels} supported."
  | channelOutOfRange direction channel available =>
    s!"{direction.name} channel {channel} out of range, module has {available} channel(s)."
  | channelRepeated direction channel =>
    s!"{direction.name} channel {channel} listed more than once."
  | invalidRate rate => s!"Sample rate hint {rate.toDisplay} is invalid."
  | batchTooLarge direction batch capacity =>
    s!"{direction.name} batch of {batch} samples exceeds buffer capacity of {capacity} samples."
  | tooManyChannelConfigs count =>
    s!"{count} channel configurations given, at most {Limits.channels} supported."
  | channelNotOnModule index module available =>
    s!"Channel {index} enabled, module {module} has {available} channel(s)."
  | readOnlyClock clock => s!"Clock {clock.name} is read-only."
  | tooManyModules count =>
    s!"Device reports {count} RF modules, at most {Limits.modules} supported."

inductive Fault where
  | invalidConfig (cause : ConfigFault)
  | alreadyConfigured (phase : Phase)
  | notConfigured
  | notRunning
  | stopped
  | late (timestamp now : Tick)
  | notYetAvailable
  | timeout
  | transportFailure (reason : String)
  | invalidModule (index : UInt8)
  | invalidChannel (channel : UInt8)
  | formatMismatch (configured : SampleFormat)
  | unsupported (feature : BoardFeature)
  | parameterNeverWritten (id : UInt8)
deriving DecidableEq

namespace Fault

/-- Conditions of a single transfer, after which the stream goes on. -/
def isSoft : Fault → Bool
  | late _ _ | notYetAvailable | timeout => true
  | _ => false

def kind : Fault → String
  | invalidConfig _ => "InvalidConfig"
  | alreadyConfigured _ => "AlreadyConfigured"
  | notConfigured => "NotConfigured"
  | notRunning => "NotRunning"
  | stopped => "Stopped"
  | late _ _ => "Late"
  | notYetAvailable => "NotYetAvailable"
  | timeout => "Timeout"
  | transportFailure _ => "TransportFailure"
  | invalidModule _ => "InvalidModule"
  | invalidChannel _ => "InvalidChannel"
  | formatMismatch _ => "FormatMismatch"
  | unsupported _ => "Unsupported"
  | parameterNeverWritten _ => "Failed"

def message : Fault → String
  | invalidConfig cause => s!"Invalid configuration: {cause.message}"
  | alreadyConfigured phase => s!"Stream already configured (state {phase.name})"
  | notConfigured => "Stream not configured"
  | notRunning => "Stream not running"
  | stopped => "Stream stopped"
  | late timestamp now =>
    s!"Late: timestamp {timestamp.toInt} is behind hardware time {now.toInt}"
  | notYetAvailable => "Samples not yet available"
  | timeout => "Timeout"
  | transportFailure reason => s!"Transport failure: {reason}"
  | invalidModule index => s!"Invalid module index {index}"
  | invalidChannel channel => s!"Channel {channel} is not streaming in this direction"
  | formatMismatch configured =>
    s!"Host format is {configured.name}, sample type cannot represent it"
  | unsupported feature => s!"Unsupported operation: {feature.name}"
  | parameterNeverWritten id => s!"Operation failed: Custom parameter {id} was never written."

end Fault
end RadioStream
