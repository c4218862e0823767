import PixelTables.Main
import PixelTables.Proofs.Path.Staging
import PixelTables.Proofs.Disk.Places
import PixelTables.Proofs.Disk.StagingPlaces
import PixelTables.Proofs.Disk.Operations
import PixelTables.Proofs.Publishing.Staged
import PixelTables.Proofs.Publishing.MovedBack
import PixelTables.Proofs.Publishing.AllOrSuffix
import PixelTables.Proofs.Publishing.ReadBack
import PixelTables.Proofs.Run.Course
import PixelTables.Proofs.Run.Written
import PixelTables.Proofs.Baking.Glyphs
import PixelTables.Proofs.Baking.Icons
import PixelTables.Proofs.Run.Stopped
import PixelTables.Proofs.Raster.Rows
import PixelTables.Proofs.Table.Built
import PixelTables.Proofs.Table.History
import PixelTables.Proofs.Profile.Characters
import PixelTables.Proofs.Listing.Reading
import PixelTables.Proofs.Listing.Words
import PixelTables.Proofs.Listing.Lines
import PixelTables.Proofs.Listing.RoundTrip
import PixelTables.Proofs.Baking.Slots
import PixelTables.Proofs.Baking.ChosenFiles
import PixelTables.Proofs.Listing.Declarations
import PixelTables.Proofs.Listing.Dimensions
import PixelTables.Proofs.Baking.Entries
import PixelTables.Proofs.Baking.Blank
import PixelTables.Proofs.Path.Joined
import PixelTables.Proofs.Run.Destinations
import PixelTables.Proofs.Listing.Identifiers
import PixelTables.Proofs.Baking.Profiles
import PixelTables.Proofs.Listing.Names
import PixelTables.Proofs.Profile.Names
import PixelTables.Proofs.Listing.Guards
import PixelTables.Proofs.Run.Guards
import PixelTables.Proofs.Run.Symbols
import PixelTables.Proofs.Listing.Comments
import PixelTables.Proofs.Baking.Comments
import PixelTables.Proofs.Run.Independence
import PixelTables.Proofs.Disk.Progress
import PixelTables.Proofs.Publishing.Repeated
import PixelTables.Proofs.Baking.Readings
import PixelTables.Proofs.Run.Repeated
import PixelTables.Proofs.Raster.Placement
import PixelTables.Proofs.Raster.Centered
import PixelTables.Proofs.Icon.Words
import PixelTables.Proofs.Disk.Spellings
import PixelTables.Proofs.Glyph.Ink
import PixelTables.Proofs.Run.Progress
import PixelTables.Proofs.Profile.WellFormed
import PixelTables.Proofs.Profile.Ranges
import PixelTables.Proofs.Listing.Frames
import PixelTables.Proofs.Baking.Reordered
import PixelTables.Proofs.Baking.Encodings
import PixelTables.Listing.Writer
import PixelTables.Proofs.Discovery
import PixelTables.Proofs.Listing.Writer
import PixelTables.Proofs.Baking.Warnings
import PixelTables.Proofs.Run.Summaries
import PixelTables.Proofs.Manifest.Defaults
import PixelTables.Proofs.Baking.Surfaces
import PixelTables.Proofs.Raster.Views
import PixelTables.Proofs.Files
