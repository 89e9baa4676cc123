/-! # Traced computations -/

namespace Multipart

inductive Level
  | trace
  | debug
  | info
  | warn
  deriving DecidableEq, Repr

def Level.name : Level → String
  | .trace => "TRACE"
  | .debug => "DEBUG"
  | .info => "INFO"
  | .warn => "WARN"

inductive Event
  | boundaryGenerated
  | sourceNotRewound
  | chunkRead
  | notRegularFile
  | endNotSeekable
  | messageBuilt
  | lengthUnknown
  | chunkedTransfer
  | configLoaded
  | configMalformed
  | configUnreadable
  | configSaved
  deriving DecidableEq, Repr

namespace Event

def level : Event → Level
  | .sourceNotRewound | .chunkRead | .notRegularFile | .endNotSeekable => .trace
  | .boundaryGenerated | .messageBuilt | .lengthUnknown | .chunkedTransfer => .debug
  | .configLoaded | .configSaved => .info
  | .configMalformed | .configUnreadable => .warn

def message : Event → String
  | .boundaryGenerated => "Generated multipart boundary"
  | .sourceNotRewound => "Source cannot be rewound"
  | .chunkRead => "Read file chunk"
  | .notRegularFile => "Not a regular file, length unknown"
  | .endNotSeekable => "File cannot seek to its end, length unknown"
  | .messageBuilt => "Built multipart message"
  | .lengthUnknown => "Field length unknown, content length indeterminate"
  | .chunkedTransfer => "Falling back to chunked transfer encoding"
  | .configLoaded => "Loaded config"
  | .configMalformed => "Failed to parse config, using defaults"
  | .configUnreadable => "Failed to read config file, using defaults"
  | .configSaved => "Saved encoder config"

end Event

structure Traced (α : Type) where
  value : α
  events : List Event

namespace Traced

variable {α β : Type}

instance : Monad Traced where
  pure a := ⟨a, []⟩
  bind x f := ⟨(f x.value).value, x.events ++ (f x.value).events⟩

def report (e : Event) : Traced Unit := ⟨(), [e]⟩

@[simp] theorem value_pure (a : α) : (pure a : Traced α).value = a := rfl

@[simp] theorem events_pure (a : α) : (pure a : Traced α).events = [] := rfl

@[simp] theorem value_bind (x : Traced α) (f : α → Traced β) :
    (x >>= f).value = (f x.value).value := rfl

@[simp] theorem events_bind (x : Traced α) (f : α → Traced β) :
    (x >>= f).events = x.events ++ (f x.value).events := rfl

@[simp] theorem value_map (f : α → β) (x : Traced α) : (f <$> x).value = f x.value := rfl

@[simp] theorem value_report (e : Event) : (report e).value = () := rfl

@[simp] theorem events_report (e : Event) : (report e).events = [e] := rfl

end Traced

end Multipart
