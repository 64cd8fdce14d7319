/-
  ControlSurface.Stylesheet.Sliders
  ─────────────────────────────────
  The shared rules of dials, sliders and text-drawn controls.
-/
import ControlSurface.Stylesheet.Rule

namespace ControlSurface.Stylesheet

/-- Dials. -/
def rotarySection : Section :=
  ⟨"Rotary controls", [
    ⟨".rotary-element", [
      ("cursor", ["pointer"]), ("user-select", ["none"]), ("touch-action", ["none"])]⟩,
    ⟨".rotary-element .rotary-svg", [
      ("display", ["block"]), ("width", ["100%"]), ("height", ["100%"]),
      ("overflow", ["visible"])]⟩,
    ⟨".rotary-element .rotary-track", [
      ("stroke", ["var(--track-color)"]), ("stroke-linecap", ["round"])]⟩,
    ⟨".rotary-element .rotary-fill", [
      ("stroke", ["var(--fill-color)"]), ("stroke-linecap", ["round"])]⟩,
    ⟨".rotary-element .rotary-indicator", [
      ("stroke", ["var(--indicator-color)"]), ("fill", ["var(--indicator-color)"]),
      ("stroke-width", ["2"]), ("stroke-linecap", ["round"])]⟩,
    ⟨".rotary-element .rotary-step-mark", [
      ("stroke", ["var(--track-color)"]), ("stroke-width", ["1"])]⟩,
    ⟨".rotary-element .rotary-thumb", [
      ("fill", ["var(--thumb-color, var(--indicator-color))"])]⟩]⟩

/-- Sliders with one thumb. -/
def linearSection : Section :=
  ⟨"Linear controls", [
    ⟨".linear-element, .range-element", [
      ("cursor", ["pointer"]), ("user-select", ["none"]), ("touch-action", ["none"])]⟩,
    ⟨".linear-element .slider-track, .range-element .slider-track", [
      ("position", ["absolute"]), ("background", ["var(--track-color)"]),
      ("border-radius", ["3px"])]⟩,
    ⟨".linear-element .slider-fill, .range-element .range-fill", [
      ("position", ["absolute"]), ("background", ["var(--fill-color)"]),
      ("border-radius", ["3px"])]⟩,
    ⟨".linear-element .slider-thumb, .range-element .range-thumb", [
      ("position", ["absolute"]), ("width", ["var(--thumb-width)"]),
      ("height", ["var(--thumb-height)"]), ("background", ["var(--thumb-color)"]),
      ("border-radius", ["4px"])]⟩,
    ⟨".linear-element[data-orientation=\"vertical\"] .slider-track,\n"
      ++ ".range-element[data-orientation=\"vertical\"] .slider-track", [
      ("top", ["0"]), ("bottom", ["0"]), ("left", ["50%"]), ("width", ["6px"]),
      ("transform", ["translateX(-50%)"])]⟩,
    ⟨".linear-element[data-orientation=\"horizontal\"] .slider-track,\n"
      ++ ".range-element[data-orientation=\"horizontal\"] .slider-track", [
      ("left", ["0"]), ("right", ["0"]), ("top", ["50%"]), ("height", ["6px"]),
      ("transform", ["translateY(-50%)"])]⟩,
    ⟨".linear-element[data-orientation=\"vertical\"] .slider-fill", [
      ("bottom", ["0"]), ("left", ["50%"]), ("width", ["6px"]),
      ("height", ["calc(var(--value) * 100%)"]), ("transform", ["translateX(-50%)"])]⟩,
    ⟨".linear-element[data-orientation=\"horizontal\"] .slider-fill", [
      ("left", ["0"]), ("top", ["50%"]), ("height", ["6px"]),
      ("width", ["calc(var(--value) * 100%)"]), ("transform", ["translateY(-50%)"])]⟩,
    ⟨".linear-element[data-orientation=\"vertical\"] .slider-thumb", [
      ("left", ["50%"]), ("bottom", ["calc(var(--value) * 100%)"]),
      ("transform", ["translate(-50%, 50%)"])]⟩,
    ⟨".linear-element[data-orientation=\"horizontal\"] .slider-thumb", [
      ("top", ["50%"]), ("left", ["calc(var(--value) * 100%)"]),
      ("transform", ["translate(-50%, -50%)"])]⟩,
    ⟨".bipolarslider-element[data-orientation=\"vertical\"] .slider-fill", [
      ("bottom", ["calc(min(var(--value), var(--center)) * 100%)"]),
      ("height",
       ["calc(max(var(--value) - var(--center), var(--center) - var(--value)) * 100%)"])]⟩,
    ⟨".bipolarslider-element[data-orientation=\"horizontal\"] .slider-fill", [
      ("left", ["calc(min(var(--value), var(--center)) * 100%)"]),
      ("width",
       ["calc(max(var(--value) - var(--center), var(--center) - var(--value)) * 100%)"])]⟩,
    ⟨".bipolarslider-element .slider-center", [
      ("position", ["absolute"]), ("background", ["var(--center-color)"])]⟩,
    ⟨".bipolarslider-element[data-orientation=\"vertical\"] .slider-center", [
      ("left", ["0"]), ("right", ["0"]), ("height", ["2px"]),
      ("bottom", ["calc(var(--center) * 100%)"])]⟩,
    ⟨".bipolarslider-element[data-orientation=\"horizontal\"] .slider-center", [
      ("top", ["0"]), ("bottom", ["0"]), ("width", ["2px"]),
      ("left", ["calc(var(--center) * 100%)"])]⟩,
    ⟨".notchedslider-element .slider-notch", [
      ("position", ["absolute"]), ("background", ["var(--notch-color)"])]⟩,
    ⟨".notchedslider-element[data-orientation=\"vertical\"] .slider-notch", [
      ("left", ["15%"]), ("right", ["15%"]), ("height", ["1px"]),
      ("bottom", ["calc(var(--notch) * 100%)"])]⟩,
    ⟨".notchedslider-element[data-orientation=\"horizontal\"] .slider-notch", [
      ("top", ["15%"]), ("bottom", ["15%"]), ("width", ["1px"]),
      ("left", ["calc(var(--notch) * 100%)"])]⟩,
    ⟨".crossfadeslider-element .crossfade-label", [
      ("position", ["absolute"]), ("top", ["100%"]), ("color", ["var(--label-color)"]),
      ("font-size", ["var(--label-font-size)"])]⟩,
    ⟨".crossfadeslider-element .crossfade-label-a", [
      ("left", ["0"])]⟩,
    ⟨".crossfadeslider-element .crossfade-label-b", [
      ("right", ["0"])]⟩]⟩

/-- Sliders with two thumbs. -/
def rangeSection : Section :=
  ⟨"Range sliders", [
    ⟨".range-element[data-orientation=\"vertical\"] .range-fill", [
      ("left", ["50%"]), ("width", ["6px"]), ("bottom", ["calc(var(--min-value) * 100%)"]),
      ("height", ["calc((var(--max-value) - var(--min-value)) * 100%)"]),
      ("transform", ["translateX(-50%)"])]⟩,
    ⟨".range-element[data-orientation=\"horizontal\"] .range-fill", [
      ("top", ["50%"]), ("height", ["6px"]), ("left", ["calc(var(--min-value) * 100%)"]),
      ("width", ["calc((var(--max-value) - var(--min-value)) * 100%)"]),
      ("transform", ["translateY(-50%)"])]⟩,
    ⟨".range-element[data-orientation=\"vertical\"] .range-thumb", [
      ("left", ["50%"]), ("transform", ["translate(-50%, 50%)"]), ("cursor", ["grab"])]⟩,
    ⟨".range-element[data-orientation=\"horizontal\"] .range-thumb", [
      ("top", ["50%"]), ("transform", ["translate(-50%, -50%)"]), ("cursor", ["grab"])]⟩,
    ⟨".range-element[data-orientation=\"vertical\"] .range-thumb-min", [
      ("bottom", ["calc(var(--min-value) * 100%)"])]⟩,
    ⟨".range-element[data-orientation=\"vertical\"] .range-thumb-max", [
      ("bottom", ["calc(var(--max-value) * 100%)"])]⟩,
    ⟨".range-element[data-orientation=\"horizontal\"] .range-thumb-min", [
      ("left", ["calc(var(--min-value) * 100%)"])]⟩,
    ⟨".range-element[data-orientation=\"horizontal\"] .range-thumb-max", [
      ("left", ["calc(var(--max-value) * 100%)"])]⟩]⟩

/-- Sliders with several bands. -/
def multiSliderSection : Section :=
  ⟨"Multi-band sliders", [
    ⟨".multislider-element", [
      ("display", ["flex"]), ("gap", ["var(--band-gap)"]), ("cursor", ["pointer"]),
      ("user-select", ["none"]), ("touch-action", ["none"])]⟩,
    ⟨".multislider-element[data-orientation=\"horizontal\"]", [
      ("flex-direction", ["column"])]⟩,
    ⟨".multislider-element .multislider-band", [
      ("position", ["relative"]), ("flex", ["1"]), ("background", ["var(--track-color)"]),
      ("border-radius", ["2px"])]⟩,
    ⟨".multislider-element .multislider-fill", [
      ("position", ["absolute"]), ("background", ["var(--fill-color)"]),
      ("border-radius", ["2px"])]⟩,
    ⟨".multislider-element[data-orientation=\"vertical\"] .multislider-fill", [
      ("left", ["0"]), ("right", ["0"]), ("bottom", ["0"]),
      ("height", ["calc(var(--value) * 100%)"])]⟩,
    ⟨".multislider-element[data-orientation=\"horizontal\"] .multislider-fill", [
      ("top", ["0"]), ("bottom", ["0"]), ("left", ["0"]),
      ("width", ["calc(var(--value) * 100%)"])]⟩]⟩

/-- Controls that are drawn with characters. -/
def asciiSection : Section :=
  ⟨"ASCII elements", [
    ⟨".ascii-element", [
      ("margin", ["0"]), ("padding", ["0"]), ("border", ["none"]), ("overflow", ["hidden"]),
      ("white-space", ["pre"]), ("font-family", ["var(--font-family)"]),
      ("font-size", ["var(--font-size)"]), ("line-height", ["var(--line-height, 1.2)"]),
      ("color", ["var(--text-color)"]),
      ("background", ["var(--background-color, transparent)"]), ("user-select", ["none"])]⟩,
    ⟨".asciislider-element, .asciibutton-element", [
      ("cursor", ["pointer"]), ("text-align", ["left"])]⟩]⟩

end ControlSurface.Stylesheet
