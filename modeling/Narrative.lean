import Narrative.Compaction
import Narrative.Main
import Narrative.Path.Navigate
import Narrative.Proofs.Compaction.Filtered
import Narrative.Proofs.Compaction.Idempotence
import Narrative.Proofs.Compaction.LastWord
import Narrative.Proofs.Json.Mark
import Narrative.Proofs.Path.Document
import Narrative.Proofs.Path.Leaving
import Narrative.Proofs.Path.Settling
import Narrative.Proofs.Play.Chapter
import Narrative.Proofs.Play.Cue
import Narrative.Proofs.Play.Foresight
import Narrative.Proofs.Play.Indifference
import Narrative.Proofs.Play.Interruption
import Narrative.Proofs.Play.Recital
import Narrative.Proofs.Play.Redrawing
import Narrative.Proofs.Play.Resume
import Narrative.Proofs.Play.Rounds
import Narrative.Proofs.Save.Backup
import Narrative.Proofs.Save.Damage
import Narrative.Proofs.Save.Document
import Narrative.Proofs.Save.Interrupted
import Narrative.Proofs.Save.Shelf
import Narrative.Proofs.Scan.Found
import Narrative.Proofs.Script.Document
import Narrative.Proofs.Script.Grouping
import Narrative.Proofs.Script.Loading
import Narrative.Proofs.Script.WellFormed
import Narrative.Proofs.Session.Edit
import Narrative.Proofs.Session.Undo
import Narrative.Save.Slots
import Narrative.Scan
import Narrative.Schema.Outline
import Narrative.Script.Check
import Narrative.Script.Draft
import Narrative.Session
import Narrative.Settings.Document
import Narrative.Stage
import Narrative.Trace
