import DirectoryScript.Main
import DirectoryScript.Sessions
import DirectoryScript.Proofs.SoundRuns
import DirectoryScript.Proofs.Relocation
import DirectoryScript.Proofs.PlacementSafety
import DirectoryScript.Proofs.FailedCommands
import DirectoryScript.Proofs.DestinationWalk
import DirectoryScript.Proofs.MoveUndone
import DirectoryScript.Proofs.Observation
import DirectoryScript.Proofs.DirectoryCount
import DirectoryScript.Proofs.LineGrammar
import DirectoryScript.Proofs.CutOutput
import DirectoryScript.Proofs.ReplayedJournal
import DirectoryScript.Proofs.JobEffects
import DirectoryScript.Proofs.LineEnds
import DirectoryScript.Proofs.ProgramEndings
import DirectoryScript.Proofs.BuiltState
import DirectoryScript.Proofs.DrawnPaths
import DirectoryScript.Proofs.DrawnAlike
import DirectoryScript.Proofs.EchoReadBack
import DirectoryScript.Proofs.ListingGrid
import DirectoryScript.Proofs.IndependentSessions
import DirectoryScript.Proofs.EditedPaths
import DirectoryScript.Proofs.WriterOpenings
