/-
  ControlSurface.Script.Runtime
  ─────────────────────────────
  The shared part of the component script: what all behaviours use, and the function that gives an
  element its behaviour.  The behaviours of the families stand between the two.
-/

namespace ControlSurface.Script

/-- The start of the component script. -/
def runtimeHead : List String :=
  ["// Generated by faceplate. Shared component runtime.",
   "(function () \x7b",
   "  'use strict';",
   "  if (window.Faceplate) return;",
   "",
   "  var families = \x7b\x7d;",
   "",
   "  function clamp(v, lo, hi) \x7b",
   "    return Math.min(hi, Math.max(lo, v));",
   "  \x7d",
   "",
   "  function repeat(ch, count) \x7b",
   "    return new Array(Math.max(count, 0) + 1).join(ch);",
   "  \x7d",
   "",
   "  function polar(cx, cy, r, angle) \x7b",
   "    var rad = (angle - 90) * Math.PI / 180;",
   "    return \x7b x: cx + r * Math.cos(rad), y: cy + r * Math.sin(rad) \x7d;",
   "  \x7d",
   "",
   "  function describeArc(cx, cy, r, start, end) \x7b",
   "    if (end - start <= 0) return '';",
   "    if (end - start >= 360) end = start + 359.99;",
   "    var a = polar(cx, cy, r, end);",
   "    var b = polar(cx, cy, r, start);",
   "    var large = end - start > 180 ? 1 : 0;",
   "    return 'M ' + a.x.toFixed(3) + ' ' + a.y.toFixed(3) + ' A ' + r + ' ' + r + ' 0 ' "
      ++ "+ large + ' 0 ' +",
   "      b.x.toFixed(3) + ' ' + b.y.toFixed(3);",
   "  \x7d",
   "",
   "  function formatValue(norm, c) \x7b",
   "    var value = c.min + norm * (c.max - c.min);",
   "    var dp = c.decimalPlaces;",
   "    switch (c.format) \x7b",
   "      case 'percentage': return (norm * 100).toFixed(dp) + '%';",
   "      case 'db': return value.toFixed(dp) + ' dB';",
   "      case 'hz': return Math.abs(value) >= 1000 ? (value / 1000).toFixed(dp) + ' kHz' "
      ++ ": value.toFixed(dp) + ' Hz';",
   "      default: return value.toFixed(dp) + (c.suffix || '');",
   "    \x7d",
   "  \x7d",
   "",
   "  function indexToValue(i, count) \x7b",
   "    return count > 1 ? i / (count - 1) : 0;",
   "  \x7d",
   "",
   "  function valueToIndex(v, count) \x7b",
   "    return count > 1 ? Math.round(clamp(v, 0, 1) * (count - 1)) : 0;",
   "  \x7d",
   "",
   "  function emit(el, detail) \x7b",
   "    el.dispatchEvent(new CustomEvent('faceplate:change', \x7b bubbles: true, detail: "
      ++ "detail \x7d));",
   "  \x7d",
   "",
   "  // One relay subscription fans out to every watcher of a parameter id.",
   "  var watchers = new Map();",
   "  var subscribed = null;",
   "",
   "  function watch(relay, id, callback) \x7b",
   "    if (!relay || !id || typeof relay.onParameterChange !== 'function') return;",
   "    if (!watchers.has(id)) watchers.set(id, []);",
   "    watchers.get(id).push(callback);",
   "    if (subscribed !== relay) \x7b",
   "      subscribed = relay;",
   "      relay.onParameterChange(function (changedId, value) \x7b",
   "        if (typeof value !== 'number' || !isFinite(value)) return;",
   "        (watchers.get(changedId) || []).forEach(function (cb) \x7b cb(value); \x7d);",
   "      \x7d);",
   "    \x7d",
   "  \x7d",
   "",
   "  function channel(relay, id) \x7b",
   "    var live = !!(relay && id);",
   "    return \x7b",
   "      id: id,",
   "      get: function (fallback) \x7b",
   "        if (!live) return Promise.resolve(fallback);",
   "        return Promise.resolve(relay.getParameter(id)).then(function (v) \x7b",
   "          return typeof v === 'number' && isFinite(v) ? v : fallback;",
   "        \x7d, function () \x7b",
   "          return fallback;",
   "        \x7d);",
   "      \x7d,",
   "      set: function (v) \x7b if (live) relay.setParameter(id, v); \x7d,",
   "      begin: function () \x7b if (live) relay.beginGesture(id); \x7d,",
   "      end: function () \x7b if (live) relay.endGesture(id); \x7d",
   "    \x7d;",
   "  \x7d",
   "",
   "  function sync(relay, ch, initial, render) \x7b",
   "    render(initial);",
   "    ch.get(initial).then(render);",
   "    watch(relay, ch.id, render);",
   "  \x7d",
   "",
   "  function drag(el, handlers) \x7b",
   "    el.addEventListener('pointerdown', function (event) \x7b",
   "      if (event.button !== 0) return;",
   "      event.preventDefault();",
   "      if (el.setPointerCapture) el.setPointerCapture(event.pointerId);",
   "      handlers.start(event);",
   "      function move(e) \x7b handlers.move(e); \x7d",
   "      function up(e) \x7b",
   "        el.removeEventListener('pointermove', move);",
   "        el.removeEventListener('pointerup', up);",
   "        el.removeEventListener('pointercancel', up);",
   "        if (handlers.end) handlers.end(e);",
   "      \x7d",
   "      el.addEventListener('pointermove', move);",
   "      el.addEventListener('pointerup', up);",
   "      el.addEventListener('pointercancel', up);",
   "    \x7d);",
   "  \x7d",
   "",
   "  function arrows(el, get, set) \x7b",
   "    el.addEventListener('keydown', function (e) \x7b",
   "      var step = e.shiftKey ? 0.1 : 0.01;",
   "      if (e.key === 'ArrowUp' || e.key === 'ArrowRight') set(get() + step);",
   "      else if (e.key === 'ArrowDown' || e.key === 'ArrowLeft') set(get() - step);",
   "      else return;",
   "      e.preventDefault();",
   "    \x7d);",
   "  \x7d",
   "",
   "  function position(el, e, vertical) \x7b",
   "    var rect = el.getBoundingClientRect();",
   "    if (vertical) return clamp(1 - (e.clientY - rect.top) / (rect.height || 1), 0, 1);",
   "    return clamp((e.clientX - rect.left) / (rect.width || 1), 0, 1);",
   "  \x7d"]

/-- The end of the component script. -/
def runtimeTail : List String :=
  ["",
   "  function bind(el, binding, relay) \x7b",
   "    var handler = families[binding.family];",
   "    if (!handler) \x7b",
   "      console.warn('[Faceplate] No behaviour for element kind', binding.kind);",
   "      return;",
   "    \x7d",
   "    try \x7b",
   "      handler(el, binding, relay || null);",
   "    \x7d catch (err) \x7b",
   "      console.error('[Faceplate] Failed to bind #' + binding.id, err);",
   "    \x7d",
   "  \x7d",
   "",
   "  window.Faceplate = \x7b",
   "    bind: bind,",
   "    describeArc: describeArc,",
   "    formatValue: formatValue,",
   "    families: families",
   "  \x7d;",
   "\x7d)();"]

end ControlSurface.Script
