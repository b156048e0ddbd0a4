import Flipbook.CommandLine.Arguments
import Flipbook.Config.Load
import Flipbook.Proofs.Config.Accepted
import Flipbook.Proofs.Config.Sections
import Flipbook.Yaml.Document

namespace Flipbook

namespace Configuration

variable {config full : Configuration} {sectionName name : Text}

theorem mem_places {settings : Table Setting} {value : Setting} (known : (sectionName, settings) ∈ usual)
    (member : (name, value) ∈ settings) : (sectionName, name) ∈ places :=
  List.mem_flatMap.mpr ⟨_, known, List.mem_map.mpr ⟨_, member, rfl⟩⟩

end Configuration

namespace CommandLine

open Flipbook.Configuration

/-- The settings that have an option, with what is given for them. -/
def Options.given (options : Options) : Table (Option Setting) (Text × Text) :=
  [(("frames".toList, "fps".toList), options.rate.map .binary),
    (("frames".toList, "frame_count".toList), options.frameCount.map .whole),
    (("canvas".toList, "size".toList), options.canvas.map .binary),
    (("output".toList, "sprite_sheet".toList), if options.hasSheet then some (.flag true) else none),
    (("advanced".toList, "parallel_processing".toList), if options.parallel then some (.flag true) else none)]

section given

variable {given : Table (Option Setting) (Text × Text)} (known : ∀ entry ∈ given, entry.1 ∈ places)
  (config : Configuration)

include known

end given

end CommandLine

end Flipbook
