/-
  ControlSurface.Script.Component
  ───────────────────────────────
  The component script: the shared part with the behaviours of the families that are needed, and
  the script for scrollbars where some container scrolls; and the scripts beside the components: a
  stand-in for the host, scrollbars, and the tabs of a preview.
-/
import ControlSurface.Script.Binding
import ControlSurface.Script.Choices
import ControlSurface.Script.Displays
import ControlSurface.Script.Runtime
import ControlSurface.Script.Sliders

namespace ControlSurface.Script

/-- A stand-in for the host that keeps parameters in the page. -/
def mockRelay : List String :=
  ["// Mock relay for running the UI outside a plugin host.",
   "// Do not ship this to a host: the host installs the real window.__relay__.",
   "(function () \x7b",
   "  'use strict';",
   "  if (window.__relay__) return;",
   "  var values = new Map();",
   "  var listeners = [];",
   "",
   "  function notify(id, value) \x7b",
   "    listeners.slice().forEach(function (callback) \x7b",
   "      try \x7b",
   "        callback(id, value);",
   "      \x7d catch (err) \x7b",
   "        console.error('[MockRelay] Listener failed', err);",
   "      \x7d",
   "    \x7d);",
   "  \x7d",
   "",
   "  window.__relay__ = \x7b",
   "    getParameter: function (id) \x7b",
   "      var value = values.has(id) ? values.get(id) : null;",
   "      console.log('[MockRelay] getParameter(' + id + ') -> ' + value);",
   "      return Promise.resolve(value);",
   "    \x7d,",
   "    setParameter: function (id, value) \x7b",
   "      values.set(id, value);",
   "      console.log('[MockRelay] setParameter(' + id + ', ' + value + ')');",
   "      setTimeout(function () \x7b notify(id, value); \x7d, 0);",
   "    \x7d,",
   "    beginGesture: function (id) \x7b",
   "      console.log('[MockRelay] beginGesture(' + id + ')');",
   "    \x7d,",
   "    endGesture: function (id) \x7b",
   "      console.log('[MockRelay] endGesture(' + id + ')');",
   "    \x7d,",
   "    onParameterChange: function (callback) \x7b",
   "      listeners.push(callback);",
   "      return function () \x7b",
   "        var index = listeners.indexOf(callback);",
   "        if (index >= 0) listeners.splice(index, 1);",
   "      \x7d;",
   "    \x7d",
   "  \x7d;",
   "  console.log('[MockRelay] Installed (preview mode)');",
   "\x7d)();"]

/-- Draws the scrollbars of scrolling containers. -/
def scrollbarScript : List String :=
  ["// Custom scrollbars for scrollable containers.",
   "// Embedded web views do not reliably draw native scrollbars.",
   "(function () \x7b",
   "  'use strict';",
   "",
   "  function createScrollbar(scroller, config, vertical) \x7b",
   "    var width = config.width || 10;",
   "    var thumbColor = config.thumbColor || '#4a4a4a';",
   "    var trackColor = config.trackColor || '#1a1a1a';",
   "    var bar = document.createElement('div');",
   "    bar.className = 'fp-scrollbar fp-scrollbar-' + (vertical ? 'vertical' : 'horizontal');",
   "    bar.style.cssText = vertical",
   "      ? 'position:absolute;right:0;top:0;bottom:0;width:' + width + 'px;background:' + "
      ++ "trackColor + ';z-index:10;'",
   "      : 'position:absolute;left:0;right:0;bottom:0;height:' + width + 'px;background:' "
      ++ "+ trackColor + ';z-index:10;';",
   "    var thumb = document.createElement('div');",
   "    thumb.style.cssText = 'position:absolute;background:' + thumbColor + "
      ++ "';border-radius:' + (width / 2) + 'px;cursor:grab;' +",
   "      (vertical ? 'left:2px;right:2px;' : 'top:2px;bottom:2px;');",
   "    bar.appendChild(thumb);",
   "",
   "    var thumbSize = 0;",
   "    function update() \x7b",
   "      var client = vertical ? scroller.clientHeight : scroller.clientWidth;",
   "      var total = vertical ? scroller.scrollHeight : scroller.scrollWidth;",
   "      var offset = vertical ? scroller.scrollTop : scroller.scrollLeft;",
   "      var track = vertical ? bar.clientHeight : bar.clientWidth;",
   "      if (total <= client + 1) \x7b",
   "        bar.style.display = 'none';",
   "        return;",
   "      \x7d",
   "      bar.style.display = 'block';",
   "      thumbSize = Math.max(24, track * client / total);",
   "      var travel = track - thumbSize;",
   "      var pos = total > client ? offset / (total - client) * travel : 0;",
   "      thumb.style[vertical ? 'height' : 'width'] = thumbSize + 'px';",
   "      thumb.style[vertical ? 'top' : 'left'] = pos + 'px';",
   "    \x7d",
   "",
   "    thumb.addEventListener('pointerdown', function (e) \x7b",
   "      e.preventDefault();",
   "      e.stopPropagation();",
   "      var start = vertical ? e.clientY : e.clientX;",
   "      var startScroll = vertical ? scroller.scrollTop : scroller.scrollLeft;",
   "      thumb.setPointerCapture(e.pointerId);",
   "      function move(ev) \x7b",
   "        var client = vertical ? scroller.clientHeight : scroller.clientWidth;",
   "        var total = vertical ? scroller.scrollHeight : scroller.scrollWidth;",
   "        var track = vertical ? bar.clientHeight : bar.clientWidth;",
   "        var ratio = (total - client) / Math.max(track - thumbSize, 1);",
   "        var delta = ((vertical ? ev.clientY : ev.clientX) - start) * ratio;",
   "        if (vertical) scroller.scrollTop = startScroll + delta; else "
      ++ "scroller.scrollLeft = startScroll + delta;",
   "      \x7d",
   "      function up() \x7b",
   "        thumb.removeEventListener('pointermove', move);",
   "        thumb.removeEventListener('pointerup', up);",
   "      \x7d",
   "      thumb.addEventListener('pointermove', move);",
   "      thumb.addEventListener('pointerup', up);",
   "    \x7d);",
   "",
   "    bar.addEventListener('click', function (e) \x7b",
   "      if (e.target === thumb) return;",
   "      var rect = bar.getBoundingClientRect();",
   "      var ratio = vertical ? (e.clientY - rect.top) / rect.height : (e.clientX - "
      ++ "rect.left) / rect.width;",
   "      if (vertical) scroller.scrollTop = ratio * (scroller.scrollHeight - "
      ++ "scroller.clientHeight);",
   "      else scroller.scrollLeft = ratio * (scroller.scrollWidth - scroller.clientWidth);",
   "    \x7d);",
   "",
   "    return \x7b element: bar, update: update \x7d;",
   "  \x7d",
   "",
   "  function init(scroller) \x7b",
   "    var config;",
   "    try \x7b",
   "      config = JSON.parse(scroller.getAttribute('data-custom-scrollbar') || '\x7b\x7d');",
   "    \x7d catch (err) \x7b",
   "      console.warn('[Scrollbar] Invalid configuration on', scroller, err);",
   "      return;",
   "    \x7d",
   "    var host = scroller.parentElement;",
   "    host.style.position = 'relative';",
   "    var bars = [createScrollbar(scroller, config, true), createScrollbar(scroller, "
      ++ "config, false)];",
   "    bars.forEach(function (bar) \x7b host.appendChild(bar.element); \x7d);",
   "    function updateAll() \x7b bars.forEach(function (bar) \x7b bar.update(); \x7d); \x7d",
   "    scroller.addEventListener('scroll', updateAll);",
   "    if (window.ResizeObserver) new ResizeObserver(updateAll).observe(scroller);",
   "    new MutationObserver(updateAll).observe(scroller, \x7b childList: true, subtree: "
      ++ "true, attributes: true \x7d);",
   "    updateAll();",
   "  \x7d",
   "",
   "  function initAll() \x7b",
   "    document.querySelectorAll('[data-custom-scrollbar]').forEach(init);",
   "  \x7d",
   "",
   "  if (document.readyState === 'loading') document.addEventListener('DOMContentLoaded', "
      ++ "initAll);",
   "  else initAll();",
   "\x7d)();"]

/-- Switches between the windows of a preview. -/
def navigationScript : List String :=
  ["// Preview navigation: window tabs and cross-window triggers.",
   "(function () \x7b",
   "  'use strict';",
   "  var tabs = document.querySelectorAll('.fp-window-tab');",
   "",
   "  function show(windowId) \x7b",
   "    var found = false;",
   "    document.querySelectorAll('.fp-window').forEach(function (section) \x7b",
   "      if (section.getAttribute('data-window-id') === windowId) found = true;",
   "    \x7d);",
   "    if (!found) return false;",
   "    document.querySelectorAll('.fp-window').forEach(function (section) \x7b",
   "      if (section.getAttribute('data-window-id') === windowId) "
      ++ "section.removeAttribute('hidden');",
   "      else section.setAttribute('hidden', '');",
   "    \x7d);",
   "    tabs.forEach(function (tab) \x7b",
   "      tab.classList.toggle('is-active', tab.getAttribute('data-window-id') === windowId);",
   "    \x7d);",
   "    window.dispatchEvent(new Event('resize'));",
   "    return true;",
   "  \x7d",
   "",
   "  tabs.forEach(function (tab) \x7b",
   "    tab.addEventListener('click', function () \x7b "
      ++ "show(tab.getAttribute('data-window-id')); \x7d);",
   "  \x7d);",
   "",
   "  // Capture phase, so the per-window bindings never see these clicks.",
   "  document.addEventListener('click', function (event) \x7b",
   "    var trigger = event.target.closest ? "
      ++ "event.target.closest('[data-navigate-window]') : null;",
   "    if (!trigger) return;",
   "    event.preventDefault();",
   "    event.stopPropagation();",
   "    var target = trigger.getAttribute('data-navigate-window');",
   "    if (!show(target)) console.warn('[Preview] No window with id', target);",
   "  \x7d, true);",
   "\x7d)();"]

/-- The behaviour of a family; texts and decoration have none. -/
def familyScript : Family → List String
  | .rotary => rotaryScript
  | .linear => linearScript
  | .range => rangeScript
  | .multiSlider => multiSliderScript
  | .ascii => asciiScript
  | .switch => switchScript
  | .choice => choiceScript
  | .multiChoice => multiChoiceScript
  | .menu => menuScript
  | .stepper => stepperScript
  | .list => listScript
  | .meter => meterScript
  | .readout => readoutScript
  | .matrix => matrixScript
  | .canvas => canvasScript
  | .keyboard => keyboardScript
  | .pad => padScript
  | .grid => gridScript
  | .xyPad => xyPadScript
  | .loop => loopScript
  | .harmonic => harmonicScript
  | .container => containerScript
  | .text | .decor => []

/-- The families with behaviour, in the order of their scripts. -/
def familyOrder : List Family :=
  [.rotary, .linear, .range, .multiSlider, .ascii, .switch, .choice, .multiChoice, .menu,
   .stepper, .list, .meter, .readout, .matrix, .canvas, .keyboard, .pad, .grid, .xyPad, .loop,
   .harmonic, .container]

/-- The families whose behaviour a list of elements needs, in order. -/
def families (elements : List Element) : Except Fault (List Family) := do
  let entries ← bindings [] elements
  .ok (familyOrder.filter fun f => entries.any fun b => b.kind.family = f)

/-- Whether some container scrolls. -/
def needsScrollbars (elements : List Element) : Bool :=
  elements.any fun e =>
    e.kind = .collapsible && !(e.get "scroll_behavior").same (.text "hidden")

/-- The component script of a list of elements. -/
def components (s : PageSetting) (elements : List Element) : Except Fault String := do
  let behaviours := (← families elements).flatMap familyScript
  let text := ofLines (runtimeHead ++ behaviours ++ runtimeTail)
  .ok (if s.customScrollbars && needsScrollbars elements then
      text ++ "\n" ++ ofLines scrollbarScript
    else text)

end ControlSurface.Script
