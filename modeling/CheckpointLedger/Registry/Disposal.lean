import CheckpointLedger.Registry.Basic

/-!
What becomes of the blobs that a registry hands out. They are discarded at once,
or queued and discarded by the time the registry is gone, or only recorded for
somebody else to discard. A blob that cannot be discarded is reported and
forgotten.
-/

namespace CheckpointLedger

inductive Disposer where
  | immediate
  | background (queue : List Blob)
  | recording
  deriving DecidableEq

structure Disposal where
  disposer : Disposer
  directory : Directory
  log : List Event
  deriving DecidableEq

def RegistryConfig.disposer (config : RegistryConfig) : Disposer :=
  match config.disposal with
  | .immediate => .immediate
  | .background => .background []

namespace Disposal

def discardLogged (disposal : Disposal) (blob : Blob) : Disposal :=
  match blob.discard disposal.directory with
  | .ok _ directory => { disposal with directory }
  | .error failure directory => { disposal with
      directory, log := disposal.log ++ [.disposalFailed blob.physicalId failure] }

def dispose (disposal : Disposal) (blob : Blob) : Disposal :=
  match disposal.disposer with
  | .immediate => disposal.discardLogged blob
  | .background queue => { disposal with disposer := .background (queue ++ [blob]) }
  | .recording => disposal

def apply (disposal : Disposal) : Effect → Disposal
  | .report event => { disposal with log := disposal.log ++ [event] }
  | .dispose blob => disposal.dispose blob

/-- Carries out the effects of a registry operation in order. -/
def settle (disposal : Disposal) (effects : List Effect) : Disposal :=
  effects.foldl apply disposal

/-- Discards what is still queued. -/
def drain (disposal : Disposal) : Disposal :=
  match disposal.disposer with
  | .background queue => queue.foldl discardLogged { disposal with disposer := .background [] }
  | _ => disposal

end Disposal

/-- The blobs handed out, in order. -/
def disposals (effects : List Effect) : List Blob :=
  effects.filterMap fun effect => match effect with
    | .dispose blob => some blob
    | .report _ => none

end CheckpointLedger
