import Brother420.Fat32.Driver
import Brother420.Fat32.Volume
import Brother420.Fat32.Views
import Brother420.Fat32.Reading
import Brother420.Fat32.Writing
import Brother420.Fat32.Routes
import Brother420.Fat32.Moves
import Brother420.Fat32.Names
import Brother420.Fat32.Files
import Brother420.Fat32.FolderRemoval
import Brother420.Fat32.Refusals
import Brother420.Fat32.Indices
import Brother420.Fat32.Exhaustion
import Brother420.Fat32.Erasing
import Brother420.Fat32.Undoing
import Brother420.Fat32.Answers
import Brother420.Fat32.Storing
import Brother420.Fat32.Interrupted
import Brother420.Fat32.Conflicts
import Brother420.Shell.Navigation
import Brother420.Shell.Renaming
import Brother420.Shell.Copying
import Brother420.Shell.Moving
import Brother420.Shell.Reaching
import Brother420.Shell.UniqueNames
import Brother420.Shell.Missing
import Brother420.Shell.Whereabouts
import Brother420.Shell.Whereis
import Brother420.Console.Editing
import Brother420.Console.Rows
import Brother420.Console.Bounds
import Brother420.Paging
import Brother420.Shell.PathSplitting
import Brother420.Ata
import Brother420.Console.Prompt
import Brother420.Shell.MultiCd
import Brother420.Shell.FileNames
import Brother420.Console.ShownNames
import Brother420.Console.TextIndex
import Brother420.Shell.PromptPath
import Brother420.Fat32.InterruptedDeletes
import Brother420.Shell.PathMoves
import Brother420.Shell.TornMoves
import Brother420.Fat32.TornFormats
import Brother420.Fat32.Inserting
import Brother420.Interrupts.Stubs
import Brother420.Interrupts.Acknowledging
