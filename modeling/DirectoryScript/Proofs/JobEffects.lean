import DirectoryScript.Proofs.JobFiles
import DirectoryScript.Proofs.ResultLines
import DirectoryScript.Proofs.StrippedText

namespace DirectoryScript

namespace Job

variable {strip : Text → Text} {sequence : Text → Prop} {j : Job} {s : FileStore}
  {lines : List Text} {place : List Text}

end Job

namespace Job

def nameTooLong : SystemError := ⟨36, "File name too long".toList⟩

end Job

end DirectoryScript
