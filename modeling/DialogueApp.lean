import DialogueApp.Lib.Runs
import DialogueApp.Lib.History
import DialogueApp.Lib.FirstOccurrences
import DialogueApp.Lib.Keyed
import DialogueApp.Lib.LastPut
import DialogueApp.Lib.Latest
import DialogueApp.Lib.Async
import DialogueApp.Lib.Shared
import DialogueApp.Lib.Interleaving
import DialogueApp.Lib.Protocol
import DialogueApp.Lib.Playback
import DialogueApp.Model.Documents
import DialogueApp.API.Services
import DialogueApp.Controllers.CreateChatController
import DialogueApp.View.TopViewModel
import DialogueApp.View.ChatView
import DialogueApp.View.TopCellContents
import DialogueApp.View.CharacterListView
import DialogueApp.Controllers.RegisterScreen
import DialogueApp.Controllers.SpeechView
import DialogueApp.Controllers.RegisterForm
import DialogueApp.Controllers.RegisterPager
import DialogueApp.Controllers.RegisterDialogueForm
import DialogueApp.Controllers.ChatPlayer
import DialogueApp.Controllers.TopViewController
import DialogueApp.Controllers.CreateChatPlayer
import DialogueApp.Controllers.Screens
import DialogueApp.World
import DialogueApp.Proof.RoundTrip
import DialogueApp.Proof.Opening
import DialogueApp.Proof.TopTable
import DialogueApp.Proof.TopCell
import DialogueApp.Proof.LineTable
import DialogueApp.Proof.Reset
import DialogueApp.Proof.Keyboard
import DialogueApp.Proof.SpeechProtocol
import DialogueApp.Proof.RegisterPages
import DialogueApp.Proof.Selection
import DialogueApp.Proof.ChatSteps
import DialogueApp.Proof.ChatOrder
import DialogueApp.Proof.ChatToggle
import DialogueApp.Proof.Pulse
import DialogueApp.Proof.PreviewPlay
import DialogueApp.Proof.Silence
import DialogueApp.Proof.Dismissals
import DialogueApp.Proof.Arrivals
import DialogueApp.Proof.OneConversation
import DialogueApp.Proof.ClientSteps
import DialogueApp.Proof.Ownership
import DialogueApp.Proof.Copies
import DialogueApp.Proof.UploadShape
import DialogueApp.Proof.Uploads
import DialogueApp.Proof.ClientInvariant
import DialogueApp.Proof.WorldInvariant
import DialogueApp.Proof.CopiedData
import DialogueApp.Proof.AllOrNothing
import DialogueApp.Proof.Loader
import DialogueApp.Proof.Sounds
import DialogueApp.Proof.NewCharacter
import DialogueApp.Proof.NewLine
import DialogueApp.Proof.WriteLog
import DialogueApp.Proof.UploadProtocol
import DialogueApp.Proof.CellColors
import DialogueApp.Proof.ClientScreen
import DialogueApp.Proof.PresentationOnClient
import DialogueApp.Proof.PlaysStored
import DialogueApp.Proof.Interleavings
import DialogueApp.Proof.FormOnClient
import DialogueApp.Proof.RegisterPager
import DialogueApp.Proof.RegisterDialogueForm
import DialogueApp.Proof.DialogueFormOnClient
import DialogueApp.Proof.Marks
import DialogueApp.Proof.CreateRuns
