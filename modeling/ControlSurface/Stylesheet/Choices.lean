/-
  ControlSurface.Stylesheet.Choices
  ─────────────────────────────────
  The shared rules of switches, buttons and menus, of controls that choose among texts, and of texts.
-/
import ControlSurface.Stylesheet.Rule

namespace ControlSurface.Stylesheet

/-- Switches and buttons. -/
def switchSection : Section :=
  ⟨"Switches and buttons", [
    ⟨".switch-element", [
      ("cursor", ["pointer"]), ("user-select", ["none"]),
      ("font-family", ["Inter, system-ui, sans-serif"])]⟩,
    ⟨".button-element, .iconbutton-element, .powerbutton-element", [
      ("display", ["flex"]), ("align-items", ["center"]), ("justify-content", ["center"]),
      ("gap", ["6px"]), ("background", ["var(--background-color)"]),
      ("color", ["var(--text-color)"]), ("border", ["2px solid var(--border-color)"]),
      ("border-radius", ["var(--border-radius)"]), ("font-size", ["14px"]),
      ("font-weight", ["500"])]⟩,
    ⟨".button-element:active, .iconbutton-element:active, .powerbutton-element:active", [
      ("filter", ["brightness(0.85)"])]⟩,
    ⟨".button-element[aria-pressed=\"true\"], .iconbutton-element[aria-pressed=\"true\"]", [
      ("filter", ["brightness(1.3)"])]⟩,
    ⟨".iconbutton-element .icon", [
      ("display", ["flex"]), ("width", ["70%"]), ("height", ["70%"]),
      ("color", ["var(--icon-color)"]), ("fill", ["currentColor"])]⟩,
    ⟨".iconbutton-element .icon svg", [
      ("width", ["100%"]), ("height", ["100%"])]⟩,
    ⟨".toggleswitch-element", [
      ("background", ["var(--off-color)"]), ("border", ["none"]), ("border-radius", ["999px"]),
      ("transition", ["background-color 0.15s ease"])]⟩,
    ⟨".toggleswitch-element[aria-checked=\"true\"]", [
      ("background", ["var(--on-color)"])]⟩,
    ⟨".toggleswitch-element .toggle-thumb", [
      ("position", ["absolute"]), ("top", ["2px"]), ("left", ["2px"]),
      ("height", ["calc(100% - 4px)"]), ("aspect-ratio", ["1"]), ("border-radius", ["50%"]),
      ("background", ["var(--thumb-color)"]),
      ("transition", ["left 0.15s ease, transform 0.15s ease"])]⟩,
    ⟨".toggleswitch-element[aria-checked=\"true\"] .toggle-thumb", [
      ("left", ["calc(100% - 2px)"]), ("transform", ["translateX(-100%)"])]⟩,
    ⟨".powerbutton-element .power-led", [
      ("width", ["8px"]), ("height", ["8px"]), ("border-radius", ["50%"]),
      ("background", ["var(--led-off-color)"])]⟩,
    ⟨".powerbutton-element[aria-pressed=\"true\"] .power-led", [
      ("background", ["var(--led-color)"]), ("box-shadow", ["0 0 6px var(--led-color)"])]⟩,
    ⟨".powerbutton-element .power-icon", [
      ("width", ["50%"]), ("height", ["50%"]), ("stroke", ["var(--text-color)"])]⟩,
    ⟨".rockerswitch-element", [
      ("display", ["flex"]), ("flex-direction", ["column"]), ("align-items", ["center"]),
      ("justify-content", ["space-between"]), ("padding", ["2px 0"]),
      ("background", ["var(--background-color)"]),
      ("border", ["1px solid var(--border-color)"]),
      ("border-radius", ["var(--border-radius)"])]⟩,
    ⟨".rockerswitch-element .rocker-paddle", [
      ("flex", ["1"]), ("width", ["80%"]), ("margin", ["2px 0"]),
      ("background", ["var(--border-color)"]), ("border-radius", ["2px"]),
      ("transition", ["transform 0.1s ease"])]⟩,
    ⟨".rockerswitch-element[data-position=\"0\"] .rocker-paddle", [
      ("transform", ["perspective(60px) rotateX(-20deg)"])]⟩,
    ⟨".rockerswitch-element[data-position=\"2\"] .rocker-paddle", [
      ("transform", ["perspective(60px) rotateX(20deg)"])]⟩,
    ⟨".rockerswitch-element .rocker-label", [
      ("color", ["var(--text-color)"]), ("font-size", ["10px"])]⟩,
    ⟨".checkbox-element", [
      ("display", ["flex"]), ("align-items", ["center"]), ("gap", ["8px"])]⟩,
    ⟨".checkbox-element[data-label-position=\"left\"]", [
      ("flex-direction", ["row-reverse"]), ("justify-content", ["flex-end"])]⟩,
    ⟨".checkbox-element input[type=\"checkbox\"]", [
      ("width", ["18px"]), ("height", ["18px"]), ("cursor", ["pointer"]),
      ("accent-color", ["var(--accent-color)"])]⟩,
    ⟨".checkbox-element label", [
      ("color", ["var(--text-color)"]), ("font-size", ["var(--font-size)"])]⟩]⟩

/-- Buttons that open a menu. -/
def menuSection : Section :=
  ⟨"Menu buttons", [
    ⟨".menubutton-element .menu-toggle", [
      ("width", ["100%"]), ("height", ["100%"]), ("background", ["var(--background-color)"]),
      ("color", ["var(--text-color)"]), ("border", ["1px solid var(--border-color)"]),
      ("border-radius", ["var(--border-radius)"]),
      ("font", ["13px Inter, system-ui, sans-serif"]), ("cursor", ["pointer"])]⟩,
    ⟨".menubutton-element .menu-items", [
      ("position", ["absolute"]), ("top", ["100%"]), ("left", ["0"]), ("min-width", ["100%"]),
      ("z-index", ["100"]), ("list-style", ["none"]),
      ("background", ["var(--background-color)"]),
      ("border", ["1px solid var(--border-color)"])]⟩,
    ⟨".menubutton-element .menu-items li", [
      ("padding", ["4px 10px"]), ("color", ["var(--text-color)"]),
      ("font", ["13px Inter, system-ui, sans-serif"]), ("cursor", ["pointer"])]⟩,
    ⟨".menubutton-element .menu-items li:hover", [
      ("background", ["var(--border-color)"])]⟩]⟩

/-- Fields with a button on either side. -/
def stepperSection : Section :=
  ⟨"Steppers", [
    ⟨".stepper-element", [
      ("display", ["flex"]), ("align-items", ["stretch"]), ("overflow", ["hidden"]),
      ("background", ["var(--background-color)"]),
      ("border", ["1px solid var(--border-color)"]),
      ("border-radius", ["var(--border-radius)"]),
      ("font-family", ["Inter, system-ui, sans-serif"]), ("font-size", ["var(--font-size)"]),
      ("color", ["var(--text-color)"]), ("user-select", ["none"])]⟩,
    ⟨".stepper-element button", [
      ("width", ["28px"]), ("background", ["transparent"]), ("color", ["inherit"]),
      ("border", ["none"]), ("font", ["inherit"]), ("cursor", ["pointer"])]⟩,
    ⟨".stepper-element .stepper-value", [
      ("flex", ["1"]), ("display", ["flex"]), ("align-items", ["center"]),
      ("justify-content", ["center"])]⟩]⟩

/-- Controls that choose one of several texts. -/
def choiceSection : Section :=
  ⟨"Single choice controls", [
    ⟨".choice-element", [
      ("user-select", ["none"]), ("font-family", ["Inter, system-ui, sans-serif"]),
      ("font-size", ["var(--font-size, 13px)"]), ("color", ["var(--text-color)"])]⟩,
    ⟨".dropdown-element, .combobox-element input", [
      ("width", ["100%"]), ("height", ["100%"]), ("padding", ["0 28px 0 8px"]),
      ("background", ["var(--background-color)"]), ("color", ["var(--text-color)"]),
      ("border", ["1px solid var(--border-color)"]),
      ("border-radius", ["var(--border-radius)"]), ("font", ["inherit"]),
      ("outline", ["none"]), ("cursor", ["pointer"])]⟩,
    ⟨".segmentbutton-element, .tabbar-element", [
      ("display", ["flex"]), ("overflow", ["hidden"]),
      ("border", ["1px solid var(--border-color)"]),
      ("border-radius", ["var(--border-radius)"])]⟩,
    ⟨".segmentbutton-element[data-orientation=\"vertical\"], "
      ++ ".tabbar-element[data-orientation=\"vertical\"]", [
      ("flex-direction", ["column"])]⟩,
    ⟨".segmentbutton-element .segment, .tabbar-element .tab", [
      ("flex", ["1"]), ("background", ["var(--background-color)"]),
      ("color", ["var(--text-color)"]), ("border", ["none"]), ("font", ["inherit"]),
      ("cursor", ["pointer"])]⟩,
    ⟨".segmentbutton-element .segment.is-selected, "
      ++ ".tabbar-element .tab[aria-selected=\"true\"]", [
      ("background", ["var(--selected-color, var(--accent-color))"]), ("color", ["#ffffff"])]⟩,
    ⟨".radiogroup-element", [
      ("display", ["flex"]), ("flex-direction", ["column"]), ("gap", ["var(--spacing)"]),
      ("background", ["var(--background-color)"])]⟩,
    ⟨".radiogroup-element[data-orientation=\"horizontal\"]", [
      ("flex-direction", ["row"])]⟩,
    ⟨".radiogroup-element .radio-option", [
      ("display", ["flex"]), ("align-items", ["center"]), ("gap", ["8px"]),
      ("cursor", ["pointer"])]⟩,
    ⟨".radiogroup-element input[type=\"radio\"]", [
      ("accent-color", ["var(--accent-color)"])]⟩,
    ⟨".rotaryswitch-element", [
      ("cursor", ["pointer"])]⟩,
    ⟨".rotaryswitch-element .rotary-switch-body", [
      ("position", ["absolute"]), ("inset", ["20%"]), ("border-radius", ["50%"]),
      ("background", ["var(--background-color)"]),
      ("border", ["2px solid var(--border-color)"]),
      ("transform", ["rotate(var(--pointer-angle))"]),
      ("transition", ["transform 0.1s ease"])]⟩,
    ⟨".rotaryswitch-element .rotary-switch-pointer", [
      ("position", ["absolute"]), ("top", ["4%"]), ("left", ["50%"]), ("width", ["3px"]),
      ("height", ["35%"]), ("background", ["var(--pointer-color)"]),
      ("transform", ["translateX(-50%)"])]⟩,
    ⟨".rotaryswitch-element .rotary-switch-label", [
      ("position", ["absolute"]), ("top", ["50%"]), ("left", ["50%"]), ("font-size", ["10px"]),
      ("transform",
       ["translate(-50%, -50%) rotate(var(--angle)) "
          ++ "translateY(-50cqmin) rotate(calc(-1 * var(--angle)))"])]⟩]⟩

/-- Controls that choose some of several texts. -/
def multiChoiceSection : Section :=
  ⟨"Multi-select dropdowns", [
    ⟨".multiselectdropdown-element", [
      ("font-family", ["Inter, system-ui, sans-serif"]), ("font-size", ["var(--font-size)"]),
      ("color", ["var(--text-color)"])]⟩,
    ⟨".multiselectdropdown-element .multiselect-toggle", [
      ("width", ["100%"]), ("height", ["100%"]), ("padding", ["0 8px"]),
      ("text-align", ["left"]), ("background", ["var(--background-color)"]),
      ("color", ["inherit"]), ("border", ["1px solid var(--border-color)"]),
      ("border-radius", ["var(--border-radius)"]), ("font", ["inherit"]),
      ("overflow", ["hidden"]), ("text-overflow", ["ellipsis"]), ("white-space", ["nowrap"]),
      ("cursor", ["pointer"])]⟩,
    ⟨".multiselectdropdown-element .multiselect-options", [
      ("position", ["absolute"]), ("top", ["100%"]), ("left", ["0"]), ("right", ["0"]),
      ("z-index", ["100"]), ("list-style", ["none"]),
      ("background", ["var(--background-color)"]),
      ("border", ["1px solid var(--border-color)"])]⟩,
    ⟨".multiselectdropdown-element .multiselect-options label", [
      ("display", ["flex"]), ("gap", ["6px"]), ("padding", ["4px 8px"]),
      ("accent-color", ["var(--accent-color)"])]⟩]⟩

/-- Labels and text fields. -/
def textSection : Section :=
  ⟨"Text", [
    ⟨".label-element", [
      ("display", ["flex"]), ("align-items", ["center"]),
      ("justify-content", ["var(--justify)"]), ("font-family", ["var(--font-family)"]),
      ("font-size", ["var(--font-size)"]), ("font-weight", ["var(--font-weight)"]),
      ("color", ["var(--color)"]), ("text-align", ["var(--text-align)"]),
      ("user-select", ["none"])]⟩,
    ⟨".textfield-element", [
      ("padding", ["var(--padding)"]), ("background", ["var(--background-color)"]),
      ("color", ["var(--text-color)"]),
      ("border", ["var(--border-width) solid var(--border-color)"]),
      ("border-radius", ["var(--border-radius)"]), ("font-family", ["var(--font-family)"]),
      ("font-size", ["var(--font-size)"]), ("text-align", ["var(--text-align)"]),
      ("outline", ["none"])]⟩,
    ⟨".textfield-element:focus", [
      ("border-color", ["var(--accent-color)"])]⟩]⟩

/-- Paths, trees and lists. -/
def listSection : Section :=
  ⟨"Lists, trees and breadcrumbs", [
    ⟨".list-element", [
      ("overflow", ["auto"]), ("font-family", ["Inter, system-ui, sans-serif"]),
      ("font-size", ["var(--font-size)"]), ("color", ["var(--text-color)"]),
      ("background", ["var(--background-color)"]), ("user-select", ["none"])]⟩,
    ⟨".list-element ul, .list-element ol", [
      ("list-style", ["none"])]⟩,
    ⟨".breadcrumb-element ol", [
      ("display", ["flex"]), ("align-items", ["center"]), ("height", ["100%"]),
      ("gap", ["6px"])]⟩,
    ⟨".breadcrumb-element .breadcrumb-item", [
      ("cursor", ["pointer"])]⟩,
    ⟨".breadcrumb-element .breadcrumb-item[aria-current=\"page\"]", [
      ("color", ["var(--accent-color)"])]⟩,
    ⟨".treeview-element ul[role=\"group\"]", [
      ("padding-left", ["14px"])]⟩,
    ⟨".treeview-element .tree-label", [
      ("display", ["block"]), ("line-height", ["var(--row-height)"]), ("cursor", ["pointer"])]⟩,
    ⟨".presetbrowser-element", [
      ("display", ["flex"]), ("flex-direction", ["column"]),
      ("border", ["1px solid var(--border-color)"]),
      ("border-radius", ["var(--border-radius)"])]⟩,
    ⟨".presetbrowser-element .preset-search", [
      ("margin", ["4px"]), ("padding", ["2px 6px"]), ("background", ["var(--item-color)"]),
      ("color", ["var(--text-color)"]), ("border", ["1px solid var(--border-color)"])]⟩,
    ⟨".presetbrowser-element .preset-list", [
      ("flex", ["1"]), ("overflow-y", ["auto"])]⟩,
    ⟨".presetbrowser-element .preset-item", [
      ("height", ["var(--item-height)"]), ("line-height", ["var(--item-height)"]),
      ("padding", ["0 8px"]), ("background", ["var(--item-color)"]), ("cursor", ["pointer"])]⟩,
    ⟨".presetbrowser-element .preset-item.is-selected", [
      ("background", ["var(--selected-color)"]), ("color", ["var(--selected-text-color)"])]⟩,
    ⟨".presetbrowser-element .preset-folder", [
      ("opacity", ["0.6"]), ("margin-right", ["6px"])]⟩]⟩

end ControlSurface.Stylesheet
