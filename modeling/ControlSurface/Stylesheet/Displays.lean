/-
  ControlSurface.Stylesheet.Displays
  ──────────────────────────────────
  The shared rules of displays, of containers and of decoration, and of instruments.
-/
import ControlSurface.Stylesheet.Rule

namespace ControlSurface.Stylesheet

/-- Level meters. -/
def meterSection : Section :=
  ⟨"Meters", [
    ⟨".meter-element", [
      ("overflow", ["hidden"]), ("border-radius", ["2px"]),
      ("background", ["var(--background-color)"])]⟩,
    ⟨".meter-element .meter-fill", [
      ("position", ["absolute"]), ("border-radius", ["2px"]),
      ("background", ["var(--meter-gradient)"])]⟩,
    ⟨".meter-element[data-orientation=\"vertical\"] .meter-fill", [
      ("left", ["0"]), ("right", ["0"]), ("bottom", ["0"]),
      ("height", ["calc(var(--value) * 100%)"]),
      ("background-size", ["100% calc(100% / max(var(--value), 0.001))"]),
      ("background-position", ["bottom"])]⟩,
    ⟨".meter-element[data-orientation=\"horizontal\"] .meter-fill", [
      ("top", ["0"]), ("bottom", ["0"]), ("left", ["0"]),
      ("width", ["calc(var(--value) * 100%)"]),
      ("background-size", ["calc(100% / max(var(--value), 0.001)) 100%"])]⟩,
    ⟨".meter-element .meter-peak", [
      ("position", ["absolute"]), ("background", ["#ffffff"])]⟩,
    ⟨".meter-element[data-orientation=\"vertical\"] .meter-peak", [
      ("left", ["0"]), ("right", ["0"]), ("height", ["2px"]),
      ("bottom", ["calc(var(--peak, var(--value)) * 100%)"])]⟩,
    ⟨".meter-element[data-orientation=\"horizontal\"] .meter-peak", [
      ("top", ["0"]), ("bottom", ["0"]), ("width", ["2px"]),
      ("left", ["calc(var(--peak, var(--value)) * 100%)"])]⟩,
    ⟨".gainreductionmeter-element[data-orientation=\"vertical\"] .meter-fill", [
      ("top", ["0"]), ("bottom", ["auto"])]⟩,
    ⟨".gainreductionmeter-element .meter-readout", [
      ("position", ["absolute"]), ("left", ["0"]), ("right", ["0"]), ("bottom", ["2px"]),
      ("text-align", ["center"]), ("font-size", ["var(--font-size)"]),
      ("color", ["var(--text-color)"])]⟩]⟩

/-- Numbers with their unit. -/
def readoutSection : Section :=
  ⟨"Numeric readouts", [
    ⟨".readout-element", [
      ("display", ["flex"]), ("align-items", ["baseline"]), ("justify-content", ["center"]),
      ("gap", ["4px"]), ("padding", ["var(--padding)"]),
      ("background", ["var(--background-color)"]), ("color", ["var(--text-color)"]),
      ("font-family", ["var(--font-family)"]), ("font-size", ["var(--font-size)"]),
      ("user-select", ["none"])]⟩,
    ⟨".readout-element .readout-unit", [
      ("font-size", ["0.75em"]), ("opacity", ["0.7"])]⟩]⟩

/-- The table of modulation sources and destinations. -/
def matrixSection : Section :=
  ⟨"Modulation matrix", [
    ⟨".matrix-element", [
      ("overflow", ["hidden"])]⟩,
    ⟨".matrix-element .modulation-matrix", [
      ("width", ["100%"]), ("height", ["100%"]), ("border-collapse", ["collapse"]),
      ("table-layout", ["fixed"])]⟩,
    ⟨".matrix-element .matrix-corner", [
      ("background", ["var(--header-background)"]),
      ("border", ["1px solid var(--border-color)"])]⟩,
    ⟨".matrix-element .matrix-header, .matrix-element .matrix-row-header", [
      ("background", ["var(--header-background)"]), ("color", ["var(--header-color)"]),
      ("font-size", ["var(--header-font-size)"]), ("font-weight", ["600"]),
      ("padding", ["2px 4px"]), ("text-align", ["center"]),
      ("border", ["1px solid var(--border-color)"]), ("white-space", ["nowrap"]),
      ("overflow", ["hidden"]), ("text-overflow", ["ellipsis"])]⟩,
    ⟨".matrix-element .matrix-row-header", [
      ("text-align", ["right"])]⟩,
    ⟨".matrix-element .matrix-cell", [
      ("width", ["var(--cell-size)"]), ("height", ["var(--cell-size)"]),
      ("background", ["var(--cell-color)"]), ("border", ["1px solid var(--border-color)"]),
      ("cursor", ["pointer"]), ("transition", ["background-color 0.15s ease"])]⟩,
    ⟨".matrix-element .matrix-cell[data-active=\"true\"]", [
      ("background", ["var(--active-color)"])]⟩]⟩

/-- Drawn displays. -/
def canvasSection : Section :=
  ⟨"Canvas visualizations", [
    ⟨".canvas-element", [
      ("overflow", ["hidden"]), ("background", ["var(--background-color)"]),
      ("border", ["var(--border-width) solid var(--border-color)"])]⟩,
    ⟨".canvas-element .viz-canvas", [
      ("display", ["block"]), ("width", ["100%"]), ("height", ["100%"])]⟩]⟩

/-- Panels, frames and boxes. -/
def containerSection : Section :=
  ⟨"Containers", [
    ⟨".container-element", [
      ("display", ["flex"]), ("flex-direction", ["column"]), ("overflow", ["hidden"]),
      ("background", ["var(--background-color)"]),
      ("border", ["var(--border-width) var(--border-style, solid) var(--border-color)"]),
      ("border-radius", ["var(--border-radius)"])]⟩,
    ⟨".container-element .container-header", [
      ("flex", ["none"]), ("height", ["var(--header-height, auto)"]), ("padding", ["4px 8px"]),
      ("background", ["var(--header-background)"]), ("color", ["var(--header-color)"]),
      ("font", ["600 var(--header-font-size) Inter, system-ui, sans-serif"]),
      ("text-align", ["left"]), ("border", ["none"])]⟩,
    ⟨".container-element .container-content", [
      ("position", ["relative"]), ("flex", ["1"]), ("padding", ["var(--padding)"]),
      ("overflow", ["hidden"])]⟩,
    ⟨".collapsible-element .collapsible-header", [
      ("display", ["flex"]), ("align-items", ["center"]), ("gap", ["6px"]),
      ("cursor", ["pointer"])]⟩,
    ⟨".collapsible-element .collapsible-header[aria-expanded=\"false\"] .collapsible-arrow", [
      ("transform", ["rotate(-90deg)"])]⟩,
    ⟨".collapsible-element .container-content", [
      ("flex", ["none"]), ("max-height", ["var(--max-content-height)"]),
      ("overflow", ["var(--scroll-behavior)"]), ("background", ["var(--content-background)"])]⟩,
    ⟨".collapsible-element .container-content[data-custom-scrollbar]", [
      ("scrollbar-width", ["none"])]⟩,
    ⟨".collapsible-element .container-content[data-custom-scrollbar]::-webkit-scrollbar", [
      ("display", ["none"])]⟩]⟩

/-- Pictures, rectangles and lines. -/
def decorSection : Section :=
  ⟨"Decoration", [
    ⟨".image-element", [
      ("display", ["block"]), ("object-fit", ["var(--fit)"])]⟩,
    ⟨".svggraphic-element", [
      ("opacity", ["var(--opacity)"])]⟩,
    ⟨".svggraphic-element svg", [
      ("display", ["block"]), ("width", ["100%"]), ("height", ["100%"])]⟩,
    ⟨".rectangle-element", [
      ("background", ["var(--fill-color)"]), ("opacity", ["var(--fill-opacity)"]),
      ("border", ["var(--border-width) solid var(--border-color)"]),
      ("border-radius", ["var(--border-radius)"])]⟩,
    ⟨".line-element", [
      ("display", ["flex"]), ("align-items", ["center"])]⟩,
    ⟨".line-element .line-stroke", [
      ("width", ["100%"]),
      ("border-top", ["var(--stroke-width) var(--stroke-style) var(--stroke-color)"])]⟩]⟩

/-- Piano keys. -/
def keyboardSection : Section :=
  ⟨"Piano keyboard", [
    ⟨".keyboard-element", [
      ("user-select", ["none"]), ("touch-action", ["none"])]⟩,
    ⟨".keyboard-element .key", [
      ("position", ["absolute"]), ("top", ["0"]), ("cursor", ["pointer"])]⟩,
    ⟨".keyboard-element .key-white", [
      ("left", ["calc(var(--white-index) * 100% / var(--white-keys))"]),
      ("width", ["calc(100% / var(--white-keys))"]), ("height", ["100%"]),
      ("background", ["var(--white-key-color)"]),
      ("border", ["1px solid var(--black-key-color)"]), ("border-radius", ["0 0 3px 3px"])]⟩,
    ⟨".keyboard-element .key-black", [
      ("left", ["calc(var(--white-index) * 100% / var(--white-keys))"]),
      ("width", ["calc(60% / var(--white-keys))"]), ("height", ["60%"]), ("z-index", ["1"]),
      ("background", ["var(--black-key-color)"]), ("transform", ["translateX(-50%)"]),
      ("border-radius", ["0 0 2px 2px"])]⟩,
    ⟨".keyboard-element .key.is-pressed", [
      ("background", ["var(--pressed-color)"])]⟩]⟩

/-- Pads. -/
def padSection : Section :=
  ⟨"Pads", [
    ⟨".pad-element", [
      ("user-select", ["none"])]⟩,
    ⟨".padgrid-element", [
      ("display", ["grid"]), ("grid-template-columns", ["repeat(var(--columns), 1fr)"]),
      ("grid-template-rows", ["repeat(var(--rows), 1fr)"]), ("gap", ["var(--gap)"])]⟩,
    ⟨".pad-element .pad, .drumpad-element", [
      ("background", ["var(--pad-color)"]), ("color", ["var(--text-color)"]),
      ("border", ["none"]), ("border-radius", ["var(--border-radius)"]),
      ("font", ["12px Inter, system-ui, sans-serif"]), ("cursor", ["pointer"]),
      ("transition", ["background-color 0.05s ease"])]⟩,
    ⟨".pad-element .pad.is-active, .drumpad-element.is-active", [
      ("background", ["var(--active-color)"])]⟩]⟩

/-- Step sequencers. -/
def gridSection : Section :=
  ⟨"Step sequencer", [
    ⟨".grid-element", [
      ("display", ["grid"]), ("grid-template-columns", ["repeat(var(--steps), 1fr)"]),
      ("grid-template-rows", ["repeat(var(--rows), 1fr)"]), ("gap", ["var(--gap)"])]⟩,
    ⟨".grid-element .step", [
      ("background", ["var(--step-color)"]), ("border", ["none"]), ("border-radius", ["2px"]),
      ("cursor", ["pointer"])]⟩,
    ⟨".grid-element .step.is-active", [
      ("background", ["var(--active-color)"])]⟩,
    ⟨".grid-element .step.is-playing", [
      ("outline", ["1px solid #ffffff"])]⟩]⟩

/-- Pads with two axes. -/
def xyPadSection : Section :=
  ⟨"XY pad", [
    ⟨".xypad-element", [
      ("cursor", ["crosshair"]), ("touch-action", ["none"]),
      ("background", ["var(--background-color)"]),
      ("background-image",
       ["linear-gradient(var(--grid-color) 1px, transparent 1px)",
        "linear-gradient(90deg, var(--grid-color) 1px, transparent 1px)"]),
      ("background-size", ["25% 25%"])]⟩,
    ⟨".xypad-element .xy-surface", [
      ("position", ["absolute"]), ("inset", ["0"])]⟩,
    ⟨".xypad-element .xy-cursor", [
      ("position", ["absolute"]), ("left", ["calc(var(--x) * 100%)"]),
      ("bottom", ["calc(var(--y) * 100%)"]), ("width", ["var(--cursor-size)"]),
      ("height", ["var(--cursor-size)"]), ("border-radius", ["50%"]),
      ("background", ["var(--cursor-color)"]), ("transform", ["translate(-50%, 50%)"]),
      ("pointer-events", ["none"])]⟩]⟩

/-- Loop markers. -/
def loopSection : Section :=
  ⟨"Loop points", [
    ⟨".loop-element", [
      ("background", ["var(--background-color)"]), ("touch-action", ["none"])]⟩,
    ⟨".loop-element .loop-region", [
      ("position", ["absolute"]), ("top", ["0"]), ("bottom", ["0"]),
      ("left", ["calc(var(--loop-start) * 100%)"]),
      ("width", ["calc((var(--loop-end) - var(--loop-start)) * 100%)"]),
      ("background", ["var(--region-color)"])]⟩,
    ⟨".loop-element .loop-marker", [
      ("position", ["absolute"]), ("top", ["0"]), ("bottom", ["0"]), ("width", ["3px"]),
      ("background", ["var(--marker-color)"]), ("transform", ["translateX(-50%)"]),
      ("cursor", ["ew-resize"])]⟩,
    ⟨".loop-element .loop-start", [
      ("left", ["calc(var(--loop-start) * 100%)"])]⟩,
    ⟨".loop-element .loop-end", [
      ("left", ["calc(var(--loop-end) * 100%)"])]⟩]⟩

/-- Bars of harmonics. -/
def harmonicSection : Section :=
  ⟨"Harmonic editor", [
    ⟨".harmonic-element", [
      ("display", ["flex"]), ("align-items", ["flex-end"]), ("gap", ["2px"]),
      ("background", ["var(--background-color)"]), ("touch-action", ["none"]),
      ("cursor", ["ns-resize"])]⟩,
    ⟨".harmonic-element .harmonic-bar", [
      ("flex", ["1"]), ("height", ["calc(var(--value) * 100%)"]),
      ("background", ["var(--bar-color)"])]⟩]⟩

end ControlSurface.Stylesheet
