import EmbeddedC.Scripted.Code
import EmbeddedC.Surroundings

/-!
# The scripted compiler's surroundings

Two environment variables set the compiler up: one forces statuses, as a list of entry points with
their numbers, the other has the greeting unit compiled as the program it is.
-/

namespace EmbeddedC.Scripted.Machine

private def forceEach (m : Machine) (setting : String) : Machine :=
  match setting.splitOn "=" with
  | [name, status] =>
    match Entry.ofName? name, number? status.toList with
    | some entry, some status => m.force entry (some status)
    | _, _ => m
  | _ => m

def ofSurroundings (files : FileSystem) (around : Surroundings) : Machine :=
  let settings := match around.value? "FAKETCC_STATUS" with
    | some settings => settings.display.splitOn ","
    | none => []
  let greeting := (around.value? "FAKETCC_DEMO").isSome
  settings.foldl forceEach { files, greeting }

end EmbeddedC.Scripted.Machine
