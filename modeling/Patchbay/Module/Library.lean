import Patchbay.Module.Messages
import Patchbay.Module.Registries
import Patchbay.Module.Scheduler
import Patchbay.Module.SoundFiles

namespace Patchbay.Library

/-! The modules that come with the compiler, and those that every program uses. -/

def standard : Library :=
  .ofList [
    ("msg", Module.messages),
    ("sked", Module.scheduler),
    ("commonsArrays", Module.arrays),
    ("commonsFrames", Module.frames),
    ("msgBuses", Module.buses),
    ("fs", Module.soundFiles)]

def required : List String := ["msg", "sked", "commonsArrays", "commonsFrames"]

end Patchbay.Library
