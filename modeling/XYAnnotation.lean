import XYAnnotation.Canvas.CurrentIndex
import XYAnnotation.Canvas.UndoLaw
import XYAnnotation.Canvas.ClosedShapes
import XYAnnotation.Canvas.Painting
import XYAnnotation.Canvas.Borders
import XYAnnotation.Files.Json
import XYAnnotation.Files.JsonRoundTrip
import XYAnnotation.Files.FileManager
import XYAnnotation.Files.Window
import XYAnnotation.Files.Coordinates
import XYAnnotation.Files.Reopened
import XYAnnotation.Files.Session
import XYAnnotation.Files.DisplayedImage
import XYAnnotation.Files.CarriedShapes
import XYAnnotation.Files.LabelFiles
import XYAnnotation.Annotations.RawPoints
import XYAnnotation.Canvas.Removal
import XYAnnotation.Canvas.UniqueNames
import XYAnnotation.Canvas.Display
import XYAnnotation.Canvas.Gesture
import XYAnnotation.Canvas.OpenShapes
import XYAnnotation.Canvas.PointCalls
import XYAnnotation.Canvas.PointUndo
import XYAnnotation.Files.PointUndo
import XYAnnotation.Files.CurrentImage
import XYAnnotation.Files.FileIndex
import XYAnnotation.Files.NoImage
import XYAnnotation.Files.Reader
import XYAnnotation.Files.Destination
import XYAnnotation.Files.Writer
import XYAnnotation.Files.SavedFile
import XYAnnotation.Canvas.Clicks
import XYAnnotation.Canvas.Grips
import XYAnnotation.Canvas.TwoClicks
import XYAnnotation.Annotations.EdgeHits
import XYAnnotation.Canvas.LightContrast
import XYAnnotation.Annotations.PolylineHits
import XYAnnotation.Canvas.HoverPress
import XYAnnotation.Canvas.InwardDrags
import XYAnnotation.Canvas.RemoveCurrent
import XYAnnotation.Annotations.Bezier
import XYAnnotation.Files.Zoom
import XYAnnotation.Labels.Manager
import XYAnnotation.Labels.RoundTrip
import XYAnnotation.Labels.UniqueIds
import XYAnnotation.Annotations.Segments
import XYAnnotation.Files.Navigation
import XYAnnotation.Canvas.BorderClamp
import XYAnnotation.Canvas.Curves
import XYAnnotation.Library.FirstMatch
import XYAnnotation.Library.Format
import XYAnnotation.Settings.IniParser
import XYAnnotation.Settings.WindowGeometry
import XYAnnotation.Library.Lines
import XYAnnotation.Settings.ImageAdj
import XYAnnotation.Files.Accepted
import XYAnnotation.Files.ByteFiles
import XYAnnotation.Files.ByteWindow
import XYAnnotation.Annotations.Painter
import XYAnnotation.Canvas.LabelSignals
import XYAnnotation.Canvas.PaintedShapes
import XYAnnotation.Files.ViewScale
import XYAnnotation.Canvas.PaintedImage
