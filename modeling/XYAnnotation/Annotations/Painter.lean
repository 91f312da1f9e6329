import XYAnnotation.Annotations.Draw
import XYAnnotation.Library.Device

namespace XYAnnotation

open Library Drawing

structure QPen where
  color : QColor
  width : ℚ
  deriving DecidableEq, Repr

structure QBrush where
  color : QColor
  alpha : ℕ
  deriving DecidableEq, Repr

structure QRectF where
  topLeft : QPointF
  width : ℚ
  height : ℚ
  deriving DecidableEq, Repr

/-- What the painter puts on the device, with the pen and the brush it is put there with. -/
inductive Mark
  | white (rect : QRectF)
  | image (topLeft : QPointF) (img : QImage)
  | path (path : Path) (pen : QPen) (brush : Option QBrush)
  | line (p1 p2 : QPointF) (pen : QPen)
  | rect (rect : QRectF) (pen : QPen) (brush : Option QBrush)
  | ellipse (rect : QRectF) (pen : QPen) (brush : Option QBrush)
  | fill (path : Path) (brush : QBrush)
  deriving DecidableEq

structure PaintContext where
  pen : QPen
  brush : Option QBrush
  deriving DecidableEq, Repr

abbrev Painting := Drawing PaintContext Mark Fault

namespace QPainter

def initial : PaintContext := ⟨⟨⟨0, 0, 0⟩, 1⟩, none⟩

def setPen (pen : QPen) : Painting Unit := change fun context => { context with pen }

def setBrush (brush : QBrush) : Painting Unit := change fun context => { context with brush := some brush }

def drawPath (path : Path) : Painting Unit := put fun context => .path path context.pen context.brush

def drawLine (p1 p2 : QPointF) : Painting Unit := put fun context => .line p1 p2 context.pen

def drawRect (rect : QRectF) : Painting Unit := put fun context => .rect rect context.pen context.brush

def drawEllipse (rect : QRectF) : Painting Unit := put fun context => .ellipse rect context.pen context.brush

def fillPath (path : Path) (brush : QBrush) : Painting Unit := put fun _ => .fill path brush

end QPainter

open QPainter

namespace Shape

def lineWidth : ℚ := 1

def pointSize : ℚ := 5 / 2

variable (shape : Shape) (points : List QPointF)

def ptPen : QPen := ⟨if shape.isSelect then white else shape.color, lineWidth / 2⟩

def ptBrush : QBrush := ⟨if shape.controlPtActive ≥ 0 then white else shape.color, 255⟩

def around (pos : QPointF) (ptSize : ℚ) : QRectF := ⟨⟨pos.x - ptSize, pos.y - ptSize⟩, ptSize * 2, ptSize * 2⟩

/-- `setSize` takes a `QSize`, whose sides are whole numbers. -/
def activeBox (pos : QPointF) : QRectF :=
  let ptSize := pointSize * (7 / 4)
  ⟨⟨pos.x - ptSize, pos.y - ptSize⟩, truncate (ptSize * 2), truncate (ptSize * 2)⟩

def drawClosedPoint (i : ℕ) : Painting Unit := do
  let pos ← read (QVector.at points i)
  if shape.controlPtActive = i then drawRect (activeBox pos) else drawEllipse (around pos (pointSize * (5 / 4)))

def drawClosedPoints : Painting Unit := do
  setPen shape.ptPen
  setBrush ⟨shape.color, 255⟩
  if shape.controlPtActive ≥ 0 then setBrush ⟨white, 255⟩
  (List.range points.length).forM (shape.drawClosedPoint points)

def drawOpenPoint (i : ℕ) : Painting Unit := do
  let pos ← read (QVector.at points i)
  drawEllipse (around pos pointSize)

def drawOpenPoints : Painting Unit := do
  setPen ⟨openColor, 1⟩
  setBrush ⟨openColor, 255⟩
  (List.range points.length).forM (drawOpenPoint points)

/-- The control points, which every class but the curve draws in the same way. -/
def drawControlPoints : Painting Unit :=
  if shape.isClosed then do
    save
    shape.drawClosedPoints points
    restore
  else drawOpenPoints points

def outlinePen : QPen := ⟨shape.pen, lineWidth⟩

def outlineBrush : QBrush := ⟨⟨10, 0, 0⟩, 100⟩

def fillBrush : QBrush := ⟨shape.color, 100⟩

def drawFill (path : Path) : Painting Unit :=
  if shape.filled then fillPath path shape.fillBrush else pure ()

end Shape

open Shape

variable (shape : Shape) (isdisEndPt : Bool)

def YPolygon.draw : Painting Unit := do
  let points := shape.shownPoints isdisEndPt
  let path := Path.polygon points shape.isClosed
  if shape.isClosed then setPen shape.outlinePen
  else do
    setBrush outlineBrush
    setPen shape.outlinePen
  drawPath path
  shape.drawControlPoints points
  shape.drawFill path

def YPolyline.draw : Painting Unit := do
  let points := shape.shownPoints isdisEndPt
  setPen shape.outlinePen
  drawPath (.polygon points false)
  shape.drawControlPoints points

def YRectangle.drawOutline (path : Path) : Painting Unit := do
  if shape.isClosed then setPen shape.outlinePen
  else do
    setBrush outlineBrush
    setPen shape.outlinePen
  drawPath path

def YRectangle.draw : Painting Unit :=
  if shape.points.size = 0 then pure ()
  else do
    let points := shape.shownPoints isdisEndPt
    let p1 ← read (QVector.at points 0)
    let p2 ← read (QVector.at points 1)
    save
    YRectangle.drawOutline shape (.rect p1 p2)
    restore
    shape.drawControlPoints points
    shape.drawFill (.rect p1 p2)

def yLine.drawOutline (p1 p2 : QPointF) : Painting Unit := do
  if shape.isClosed then setPen shape.outlinePen
  else do
    setBrush outlineBrush
    setPen shape.outlinePen
  drawLine p1 p2

def yLine.draw : Painting Unit :=
  if shape.points.size = 0 then pure ()
  else do
    let points := shape.shownPoints isdisEndPt
    let p1 ← read (QVector.at points 0)
    let p2 ← read (QVector.at points 1)
    save
    yLine.drawOutline shape p1 p2
    restore
    shape.drawControlPoints points

/-- The control points of a curve. Those of an open one get no brush of their own. -/
def yCurve.drawControlPoints (points : List QPointF) : Painting Unit :=
  if shape.isClosed then do
    save
    shape.drawClosedPoints points
    restore
  else do
    setPen ⟨openColor, 1⟩
    (List.range points.length).forM (drawOpenPoint points)

def yCurve.drawCurve (points : List QPointF) (path : Path) : Painting Unit := do
  yCurve.drawControlPoints shape points
  setPen ⟨shape.color, lineWidth⟩
  drawPath path

def yCurve.draw : Painting Unit :=
  if shape.points.size = 0 then pure ()
  else do
    let points := shape.shownPoints isdisEndPt
    let p1 ← read (QVector.at points 0)
    let path ← read ((List.range' 1 numSteps).mapM fun i : ℕ => deCasteljau points (i / numSteps))
    save
    yCurve.drawCurve shape points (.curve (p1 :: path))
    restore

def Shape.paint : Painting Unit :=
  match shape.type with
  | .rectangle => YRectangle.draw shape isdisEndPt
  | .line => yLine.draw shape isdisEndPt
  | .curve => yCurve.draw shape isdisEndPt
  | .polygon | .none => YPolygon.draw shape isdisEndPt
  | .polyline => YPolyline.draw shape isdisEndPt

section Effects

namespace QPainter

theorem setPen_paints (pen : QPen) : Paints (setPen pen) (.change fun context => { context with pen }) :=
  change_paints _

theorem setBrush_paints (brush : QBrush) :
    Paints (setBrush brush) (.change fun context => { context with brush := some brush }) := change_paints _

end QPainter

def Marker.mark (context : PaintContext) : Marker → Mark
  | .activeRect pos => .rect (activeBox pos) context.pen context.brush
  | .closedEllipse pos => .ellipse (around pos (pointSize * (5 / 4))) context.pen context.brush
  | .openEllipse pos => .ellipse (around pos pointSize) context.pen context.brush

def openContext : PaintContext := ⟨⟨openColor, 1⟩, some ⟨openColor, 255⟩⟩

namespace Shape

variable (shape : Shape) {points : List QPointF} {markers : List Marker}

def ptContext (context : PaintContext) : PaintContext :=
  if shape.isClosed then ⟨shape.ptPen, some shape.ptBrush⟩
  else if shape.type = .curve then { context with pen := openContext.pen } else openContext

def pathBrush (brush : Option QBrush) : Option QBrush :=
  match shape.type with
  | .polygon | .rectangle | .none => if shape.isClosed then brush else some outlineBrush
  | _ => brush

def pathMark (context : PaintContext) (pen : QColor) : Path → Mark
  | .segment p1 p2 => .line p1 p2 ⟨pen, lineWidth⟩
  | path => .path path ⟨pen, lineWidth⟩ (shape.pathBrush context.brush)

def marks (picture : Picture) (context : PaintContext) : List Mark :=
  let path := shape.pathMark context picture.pen picture.path
  let points := picture.markers.map (Marker.mark (shape.ptContext context))
  if shape.type = .curve then points ++ [path]
  else path :: points ++ if picture.filled then [.fill picture.path shape.fillBrush] else []

/-- The context that is left for the next shape: only rectangles, lines and curves put their pen back, and the brush
    of the open control points stays. -/
def leaves (context : PaintContext) : PaintContext :=
  match shape.type with
  | .curve => context
  | .rectangle | .line => if shape.isClosed then context else openContext
  | _ => if shape.isClosed then { context with pen := shape.outlinePen } else openContext

theorem drawClosedPoint_paints (closed : shape.isClosed = true) {i : ℕ} {marker : Marker}
    (reading : (do let pos ← QVector.at points i; .ok (shape.marker i pos)) = .ok marker) :
    Paints (shape.drawClosedPoint points i) (.put fun context => marker.mark context) := by
  obtain ⟨pos, found, rest⟩ := bind_completes reading
  obtain rfl := Except.ok.inj rest
  rw [drawClosedPoint, found, read_bind, marker, if_pos closed]
  split
  · exact put_paints _
  · exact put_paints _

theorem drawOpenPoint_paints (opened : shape.isClosed = false) {i : ℕ} {marker : Marker}
    (reading : (do let pos ← QVector.at points i; .ok (shape.marker i pos)) = .ok marker) :
    Paints (drawOpenPoint points i) (.put fun context => marker.mark context) := by
  obtain ⟨pos, found, rest⟩ := bind_completes reading
  obtain rfl := Except.ok.inj rest
  rw [drawOpenPoint, found, read_bind, marker, opened]
  exact put_paints _

theorem all_marks (markers : List Marker) :
    Effect.all (markers.map fun marker => Effect.put fun context => marker.mark context) =
      ⟨fun context => context, fun context => markers.map (Marker.mark context)⟩ := by
  have each := Effect.all_put (markers.map fun marker context => marker.mark context)
  simp only [List.map_map] at each
  exact each

theorem drawClosedPoints_paints (closed : shape.isClosed = true) (made : shape.markers points = .ok markers) :
    Paints (shape.drawClosedPoints points)
      ⟨fun _ => ⟨shape.ptPen, some shape.ptBrush⟩,
        fun _ => markers.map (Marker.mark ⟨shape.ptPen, some shape.ptBrush⟩)⟩ := by
  have loop : Paints ((List.range points.length).forM (shape.drawClosedPoint points))
      (Effect.all (markers.map fun marker => Effect.put fun context => marker.mark context)) :=
    Paints.forM_read (fun _ _ reading => shape.drawClosedPoint_paints closed reading) made
  rw [all_marks] at loop
  unfold drawClosedPoints ptBrush
  by_cases active : shape.controlPtActive ≥ 0
  · simp only [active, if_true]
    exact (setPen_paints _).bind ((setBrush_paints _).bind ((setBrush_paints _).bind loop))
  · simp only [active, if_false]
    exact (setPen_paints _).bind ((setBrush_paints _).bind loop)

theorem drawOpenPoints_loop (opened : shape.isClosed = false) (made : shape.markers points = .ok markers) :
    Paints ((List.range points.length).forM (drawOpenPoint points))
      ⟨fun context => context, fun context => markers.map (Marker.mark context)⟩ := by
  have loop : Paints ((List.range points.length).forM (drawOpenPoint points))
      (Effect.all (markers.map fun marker => Effect.put fun context => marker.mark context)) :=
    Paints.forM_read (fun _ _ reading => shape.drawOpenPoint_paints opened reading) made
  rw [all_marks] at loop
  exact loop

theorem drawOpenPoints_paints (opened : shape.isClosed = false) (made : shape.markers points = .ok markers) :
    Paints (drawOpenPoints points) ⟨fun _ => openContext, fun _ => markers.map (Marker.mark openContext)⟩ :=
  (setPen_paints _).bind ((setBrush_paints _).bind (shape.drawOpenPoints_loop opened made))

theorem drawControlPoints_paints (uncurved : shape.type ≠ .curve) (made : shape.markers points = .ok markers) :
    Paints (shape.drawControlPoints points)
      ⟨fun context => if shape.isClosed then context else openContext,
        fun context => markers.map (Marker.mark (shape.ptContext context))⟩ := by
  unfold drawControlPoints ptContext
  cases closed : shape.isClosed with
  | true =>
    simp only [if_true]
    exact (shape.drawClosedPoints_paints closed made).enclosed
  | false =>
    simp only [Bool.false_eq_true, if_false, uncurved]
    exact shape.drawOpenPoints_paints closed made

theorem drawFill_paints (path : Path) : Paints (shape.drawFill path)
    ⟨fun context => context, fun _ => if shape.filled then [.fill path shape.fillBrush] else []⟩ := by
  unfold drawFill
  split
  · exact put_paints _
  · exact Paints.pure

end Shape

section Classes

variable {shape : Shape} {isdisEndPt : Bool} {picture : Picture}

theorem polygon_paints (type : shape.type = .polygon ∨ shape.type = .none)
    (drawn : shape.draw isdisEndPt = .ok (some picture)) :
    Paints (YPolygon.draw shape isdisEndPt) ⟨shape.leaves, shape.marks picture⟩ := by
  obtain ⟨markers, made, rfl⟩ : ∃ markers, shape.markers (shape.shownPoints isdisEndPt) = .ok markers ∧
      ⟨.polygon (shape.shownPoints isdisEndPt) shape.isClosed, shape.pen, markers, shape.filled⟩ = picture := by
    rcases type with type | type
    all_goals
      unfold Shape.draw at drawn
      simp only [type] at drawn
      obtain ⟨markers, made, rest⟩ := bind_completes drawn
      exact ⟨markers, made, Option.some.inj (Except.ok.inj rest)⟩
  have uncurved : shape.type ≠ .curve := by
    rcases type with type | type <;> rw [type] <;> decide
  have points := shape.drawControlPoints_paints uncurved made
  have fill := shape.drawFill_paints (.polygon (shape.shownPoints isdisEndPt) shape.isClosed)
  unfold YPolygon.draw
  cases closed : shape.isClosed with
  | true =>
    rw [closed] at fill
    simp only [if_true]
    refine ((setPen_paints _).bind ((put_paints _).bind (points.bind fill))).congr ?_ ?_
    all_goals
      intro context
      rcases type with type | type
      all_goals
        simp [Effect.andThen, Effect.change, Effect.put, Shape.leaves, Shape.marks, Shape.pathMark, Shape.pathBrush,
          Shape.ptContext, Shape.outlinePen, type, closed]
  | false =>
    rw [closed] at fill
    simp only [Bool.false_eq_true, if_false]
    refine ((setBrush_paints _).bind ((setPen_paints _).bind ((put_paints _).bind (points.bind fill)))).congr ?_ ?_
    all_goals
      intro context
      rcases type with type | type
      all_goals
        simp [Effect.andThen, Effect.change, Effect.put, Shape.leaves, Shape.marks, Shape.pathMark, Shape.pathBrush,
          Shape.ptContext, Shape.outlinePen, type, closed]

theorem polyline_paints (type : shape.type = .polyline) (drawn : shape.draw isdisEndPt = .ok (some picture)) :
    Paints (YPolyline.draw shape isdisEndPt) ⟨shape.leaves, shape.marks picture⟩ := by
  unfold Shape.draw at drawn
  simp only [type] at drawn
  obtain ⟨markers, made, rest⟩ := bind_completes drawn
  obtain rfl := Option.some.inj (Except.ok.inj rest)
  have uncurved : shape.type ≠ .curve := by rw [type]; decide
  refine ((setPen_paints _).bind ((put_paints _).bind (shape.drawControlPoints_paints uncurved made))).congr ?_ ?_
  all_goals
    intro context
    simp [Effect.andThen, Effect.change, Effect.put, Shape.leaves, Shape.marks, Shape.pathMark, Shape.pathBrush,
      Shape.ptContext, Shape.outlinePen, type]

theorem corners_complete {made : QPointF → QPointF → List Marker → Picture}
    (drawn : (if shape.points.size = 0 then .ok none else do
      let p1 ← QVector.at (shape.shownPoints isdisEndPt) 0
      let p2 ← QVector.at (shape.shownPoints isdisEndPt) 1
      let markers ← shape.markers (shape.shownPoints isdisEndPt)
      .ok (some (made p1 p2 markers)) : Except Fault (Option Picture)) = .ok (some picture)) :
    shape.points.size ≠ 0 ∧ ∃ p1 p2 markers, QVector.at (shape.shownPoints isdisEndPt) 0 = .ok p1 ∧
      QVector.at (shape.shownPoints isdisEndPt) 1 = .ok p2 ∧
      shape.markers (shape.shownPoints isdisEndPt) = .ok markers ∧ made p1 p2 markers = picture := by
  split at drawn
  · cases drawn
  · rename_i some
    obtain ⟨p1, first, rest⟩ := bind_completes drawn
    obtain ⟨p2, second, rest⟩ := bind_completes rest
    obtain ⟨markers, points, rest⟩ := bind_completes rest
    exact ⟨some, p1, p2, markers, first, second, points, Option.some.inj (Except.ok.inj rest)⟩

theorem outline_paints {draw : Painting Unit} {mark : PaintContext → Mark} (puts : Paints draw (.put mark)) :
    Paints (if shape.isClosed then setPen shape.outlinePen >>= fun _ => draw
        else setBrush outlineBrush >>= fun _ => setPen shape.outlinePen >>= fun _ => draw)
      ⟨fun context => ⟨shape.outlinePen, if shape.isClosed then context.brush else some outlineBrush⟩,
        fun context => [mark ⟨shape.outlinePen, if shape.isClosed then context.brush else some outlineBrush⟩]⟩ := by
  cases shape.isClosed with
  | true =>
    simp only [if_true]
    exact (setPen_paints _).bind puts
  | false =>
    simp only [Bool.false_eq_true, if_false]
    exact (setBrush_paints _).bind ((setPen_paints _).bind puts)

theorem rectangle_paints (type : shape.type = .rectangle) (drawn : shape.draw isdisEndPt = .ok (some picture)) :
    Paints (YRectangle.draw shape isdisEndPt) ⟨shape.leaves, shape.marks picture⟩ := by
  unfold Shape.draw at drawn
  simp only [type] at drawn
  obtain ⟨some, p1, p2, markers, first, second, made, rfl⟩ := corners_complete drawn
  have uncurved : shape.type ≠ .curve := by rw [type]; decide
  have rest := (shape.drawControlPoints_paints uncurved made).bind (shape.drawFill_paints (.rect p1 p2))
  have outline : Paints (YRectangle.drawOutline shape (.rect p1 p2)) _ := outline_paints (put_paints _)
  unfold YRectangle.draw
  simp only [if_neg some, first, second, read_bind]
  refine (outline.enclosed_then rest).congr ?_ ?_
  all_goals
    intro context
    simp [Effect.andThen, Effect.enclosed, Shape.leaves, Shape.marks, Shape.pathMark, Shape.pathBrush,
      Shape.ptContext, Shape.outlinePen, type]

theorem line_paints (type : shape.type = .line) (drawn : shape.draw isdisEndPt = .ok (some picture)) :
    Paints (yLine.draw shape isdisEndPt) ⟨shape.leaves, shape.marks picture⟩ := by
  unfold Shape.draw at drawn
  simp only [type] at drawn
  obtain ⟨some, p1, p2, markers, first, second, made, rfl⟩ := corners_complete drawn
  have uncurved : shape.type ≠ .curve := by rw [type]; decide
  have outline : Paints (yLine.drawOutline shape p1 p2) _ := outline_paints (put_paints _)
  unfold yLine.draw
  simp only [if_neg some, first, second, read_bind]
  refine (outline.enclosed_then (shape.drawControlPoints_paints uncurved made)).congr ?_ ?_
  all_goals
    intro context
    simp [Effect.andThen, Effect.enclosed, Shape.leaves, Shape.marks, Shape.pathMark,
      Shape.ptContext, Shape.outlinePen, type]

theorem curve_points {points : List QPointF} {markers : List Marker} (type : shape.type = .curve)
    (made : shape.markers points = .ok markers) :
    Paints (yCurve.drawControlPoints shape points)
      ⟨fun context => if shape.isClosed then context else { context with pen := openContext.pen },
        fun context => markers.map (Marker.mark (shape.ptContext context))⟩ := by
  unfold yCurve.drawControlPoints Shape.ptContext
  cases closed : shape.isClosed with
  | true =>
    simp only [if_true]
    exact (shape.drawClosedPoints_paints closed made).enclosed
  | false =>
    simp only [Bool.false_eq_true, if_false, type, if_true]
    exact (setPen_paints _).bind (shape.drawOpenPoints_loop closed made)

theorem curve_paints (type : shape.type = .curve) (drawn : shape.draw isdisEndPt = .ok (some picture)) :
    Paints (yCurve.draw shape isdisEndPt) ⟨shape.leaves, shape.marks picture⟩ := by
  unfold Shape.draw at drawn
  simp only [type] at drawn
  split at drawn
  · cases drawn
  · rename_i some
    obtain ⟨p1, first, rest⟩ := bind_completes drawn
    obtain ⟨path, curve, rest⟩ := bind_completes rest
    obtain ⟨markers, made, rest⟩ := bind_completes rest
    obtain rfl := Option.some.inj (Except.ok.inj rest)
    have inside : Paints (yCurve.drawCurve shape (shape.shownPoints isdisEndPt) (.curve (p1 :: path))) _ :=
      (curve_points type made).bind ((setPen_paints _).bind (put_paints _))
    unfold yCurve.draw
    simp only [if_neg some, first, curve, read_bind]
    refine inside.enclosed.congr ?_ ?_
    all_goals
      intro context
      cases closed : shape.isClosed
      all_goals
        simp [Effect.andThen, Effect.enclosed, Effect.change, Effect.put, Shape.leaves, Shape.marks, Shape.pathMark,
          Shape.pathBrush, Shape.ptContext, type, closed]

end Classes

namespace Shape

variable {shape : Shape} {isdisEndPt : Bool}

/-- What a shape puts down is what its picture says, and the painter keeps its saved contexts. -/
theorem paint_paints {picture : Picture} (drawn : shape.draw isdisEndPt = .ok (some picture)) :
    Paints (shape.paint isdisEndPt) ⟨shape.leaves, shape.marks picture⟩ := by
  unfold paint
  cases type : shape.type with
  | rectangle => exact rectangle_paints type drawn
  | line => exact line_paints type drawn
  | curve => exact curve_paints type drawn
  | polygon => exact polygon_paints (.inl type) drawn
  | polyline => exact polyline_paints type drawn
  | none => exact polygon_paints (.inr type) drawn

theorem draw_none (drawn : shape.draw isdisEndPt = .ok none) :
    shape.points.size = 0 ∧ (shape.type = .rectangle ∨ shape.type = .line ∨ shape.type = .curve) := by
  unfold draw at drawn
  cases type : shape.type with
  | rectangle | line | curve =>
    simp only [type] at drawn
    split at drawn
    · rename_i empty
      exact ⟨empty, by simp⟩
    · obtain ⟨_, _, rest⟩ := bind_completes drawn
      obtain ⟨_, _, rest⟩ := bind_completes rest
      obtain ⟨_, _, rest⟩ := bind_completes rest
      cases rest
  | polygon | polyline | none =>
    simp only [type] at drawn
    obtain ⟨_, _, rest⟩ := bind_completes drawn
    cases rest

theorem paint_none (drawn : shape.draw isdisEndPt = .ok none) : Paints (shape.paint isdisEndPt) .none := by
  obtain ⟨empty, type⟩ := draw_none drawn
  unfold paint
  rcases type with type | type | type
  · simp only [type, YRectangle.draw, if_pos empty]
    exact Paints.pure
  · simp only [type, yLine.draw, if_pos empty]
    exact Paints.pure
  · simp only [type, yCurve.draw, if_pos empty]
    exact Paints.pure

theorem at_fails {α : Type} {values : List α} {i : ℤ} {fault : Fault} (failed : QVector.at values i = .error fault) :
    fault = .outOfRange := by
  unfold QVector.at at failed
  split at failed
  · split at failed
    · cases failed
    · exact (Except.error.inj failed).symm
  · exact (Except.error.inj failed).symm

theorem corners_fail {fault : Fault} {points : List QPointF} {made : QPointF → QPointF → List Marker → Option Picture}
    (failed : (do
      let p1 ← QVector.at points 0
      let p2 ← QVector.at points 1
      let markers ← shape.markers points
      .ok (made p1 p2 markers) : Except Fault (Option Picture)) = .error fault)
    (rest : QPointF → QPointF → Painting Unit) :
    fault = .outOfRange ∧ Fails (read (QVector.at points 0) >>= fun p1 => read (QVector.at points 1) >>= rest p1) fault := by
  obtain ⟨markers, marked⟩ := shape.markers_completes points
  rw [marked] at failed
  cases first : QVector.at points 0 with
  | error other =>
    rw [first] at failed
    obtain rfl := Except.error.inj failed
    exact ⟨at_fails first, read_fails other⟩
  | ok p1 =>
    rw [first] at failed
    cases second : QVector.at points 1 with
    | error other =>
      rw [second] at failed
      obtain rfl := Except.error.inj failed
      rw [read_bind]
      exact ⟨at_fails second, read_fails other⟩
    | ok p2 =>
      rw [second] at failed
      cases failed

theorem paint_fails {fault : Fault} (failed : shape.draw isdisEndPt = .error fault) :
    fault = .outOfRange ∧ Fails (shape.paint isdisEndPt) fault := by
  obtain ⟨markers, marked⟩ := shape.markers_completes (shape.shownPoints isdisEndPt)
  unfold paint
  cases type : shape.type with
  | rectangle =>
    unfold draw at failed
    simp only [type] at failed
    split at failed
    · cases failed
    · rename_i some
      simp only [YRectangle.draw, if_neg some]
      exact corners_fail failed _
  | line =>
    unfold draw at failed
    simp only [type] at failed
    split at failed
    · cases failed
    · rename_i some
      simp only [yLine.draw, if_neg some]
      exact corners_fail failed _
  | curve =>
    obtain ⟨picture, drawn⟩ := shape.curve_draw_completes isdisEndPt type
    rw [drawn] at failed
    cases failed
  | polygon | polyline | none =>
    unfold draw at failed
    simp only [type, marked] at failed
    cases failed

section Brush

variable {picture : Picture} (context other : PaintContext)

/-- The shape leaves the brush of its control points to the next shape. -/
def LeavesBrush (shape : Shape) : Prop :=
  shape.isClosed = false ∧ match shape.type with
    | .curve => False
    | .rectangle | .line => shape.points.size ≠ 0
    | _ => True

/-- The shape is drawn with the brush that it finds. -/
def ShowsBrush (shape : Shape) : Prop :=
  match shape.type with
  | .polygon | .none => shape.isClosed = true
  | .rectangle => shape.isClosed = true ∧ shape.points.size ≠ 0
  | .line => False
  | .polyline => True
  | .curve => shape.points.size ≠ 0

theorem draw_some (drawn : shape.draw isdisEndPt = .ok (some picture)) :
    (shape.type.twoPoint = true ∨ shape.type = .curve → shape.points.size ≠ 0) ∧
      (shape.type = .line ↔ ∃ p1 p2, picture.path = .segment p1 p2) := by
  unfold draw at drawn
  cases type : shape.type with
  | rectangle | line =>
    simp only [type] at drawn
    obtain ⟨some, p1, p2, markers, _, _, _, rfl⟩ := corners_complete drawn
    simp [some]
  | curve =>
    simp only [type] at drawn
    split at drawn
    · cases drawn
    · rename_i some
      obtain ⟨p1, _, rest⟩ := bind_completes drawn
      obtain ⟨path, _, rest⟩ := bind_completes rest
      obtain ⟨markers, _, rest⟩ := bind_completes rest
      cases rest
      simp [some]
  | polygon | polyline | none =>
    simp only [type] at drawn
    obtain ⟨markers, _, rest⟩ := bind_completes drawn
    cases rest
    simp [DrawMode.twoPoint]

theorem pathMark_eq_iff (pen : QColor) (path : Path) :
    shape.pathMark context pen path = shape.pathMark other pen path ↔
      ((∀ p1 p2, path ≠ .segment p1 p2) → shape.pathBrush context.brush = shape.pathBrush other.brush) := by
  cases path <;> simp [pathMark]

theorem marks_steady : (Effect.mk shape.leaves (shape.marks picture)).Steady := by
  intro context other
  simp only [marks]
  split
  · simp
  · simp

theorem marks_eq_iff (drawn : shape.draw isdisEndPt = .ok (some picture)) :
    shape.marks picture context = shape.marks picture other ↔ (shape.ShowsBrush → context.brush = other.brush) := by
  obtain ⟨some, line⟩ := draw_some drawn
  have segment : (∀ p1 p2, picture.path ≠ .segment p1 p2) ↔ shape.type ≠ .line := by
    rw [ne_eq, line, not_exists]
    simp only [not_exists, ne_eq]
  have path := shape.pathMark_eq_iff context other picture.pen picture.path
  rw [segment] at path
  by_cases curve : shape.type = .curve
  · have brush : shape.pathBrush context.brush = shape.pathBrush other.brush ↔ context.brush = other.brush := by
      simp only [pathBrush, curve]
    have shows : shape.ShowsBrush := by
      simp only [ShowsBrush, curve]
      exact some (.inr curve)
    have unlined : shape.type ≠ .line := by rw [curve]; decide
    rw [brush] at path
    simp only [marks, if_pos curve, shows, forall_const]
    constructor
    · intro same
      obtain ⟨_, last⟩ := List.append_inj' same rfl
      exact path.mp (List.cons.inj last).1 unlined
    · intro same
      have points : shape.ptContext context = shape.ptContext other := by
        simp only [ptContext, same]
      rw [points, path.mpr fun _ => same]
  · have points : shape.ptContext context = shape.ptContext other := by
      unfold ptContext
      rw [if_neg curve, if_neg curve]
    simp only [marks, if_neg curve, points, List.cons_append, List.cons.injEq, and_true]
    rw [path]
    unfold pathBrush ShowsBrush
    cases type : shape.type <;> cases closed : shape.isClosed <;> simp_all [DrawMode.twoPoint]

theorem leaves_brush_iff (drawn : shape.draw isdisEndPt = .ok (some picture)) :
    (shape.leaves context).brush = none ↔ context.brush = none ∧ ¬ shape.LeavesBrush := by
  obtain ⟨some, _⟩ := draw_some drawn
  unfold leaves LeavesBrush
  cases type : shape.type <;> cases closed : shape.isClosed <;> simp_all [DrawMode.twoPoint, openContext]

end Brush

end Shape

end Effects

end XYAnnotation
