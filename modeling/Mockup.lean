import Mockup.Value.Reader
import Mockup.Value.Writer
import Mockup.Layout.Placement
import Mockup.Digest
import Mockup.Content
import Mockup.Element.Recognition
import Mockup.Element.Outline
import Mockup.Style.Assignment
import Mockup.Pattern.Listing
import Mockup.Pattern.Repetition
import Mockup.Layer.Source
import Mockup.Screen
import Mockup.Settings
import Mockup.Command
import Mockup.Main
import Mockup.Proofs.Layer.Selection
import Mockup.Proofs.Element.Coverage
import Mockup.Proofs.Style.Assignment
import Mockup.Proofs.Screen.References
import Mockup.Proofs.Screen.Translation
import Mockup.Proofs.Screen.Rewording
import Mockup.Proofs.Screen.Visibility
import Mockup.Proofs.Screen.Writing
import Mockup.Proofs.Screen.Totality
import Mockup.Proofs.Pattern.Grouping
import Mockup.Proofs.Element.Linking
import Mockup.Proofs.Element.Rejection
import Mockup.Proofs.Command.Watching
import Mockup.Proofs.Command.Saving
import Mockup.Proofs.Value.Canonical
import Mockup.Proofs.Screen.Overlays
import Mockup.Proofs.Element.Registration
import Mockup.Proofs.Pattern.Variations
import Mockup.Proofs.Text.Wildcard
import Mockup.Proofs.Layout.Inversion
import Mockup.Proofs.Layout.Reordering
import Mockup.Proofs.Layout.Transposition
import Mockup.Proofs.Style.Recovery
import Mockup.Proofs.Style.Tokens
import Mockup.Proofs.Screen.Edges
import Mockup.Proofs.Screen.Bars
import Mockup.Proofs.Screen.Removal
import Mockup.Proofs.Screen.Interactions
import Mockup.Proofs.Client.Retrying
import Mockup.Proofs.Pattern.Outermost
import Mockup.Proofs.Pattern.Depth
import Mockup.Proofs.Pattern.ShortHash
import Mockup.Proofs.Content
import Mockup.Proofs.Address
import Mockup.Proofs.Screen.VariantNames
import Mockup.Proofs.Naming.Reference
import Mockup.Proofs.Layout.Percentage
import Mockup.Proofs.Box.Neighbours
import Mockup.Proofs.Command.Ending
