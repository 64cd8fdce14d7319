/-
  ControlSurface.Script.Sliders
  ─────────────────────────────
  The behaviour of dials, sliders and controls drawn with characters.
-/

namespace ControlSurface.Script

/-- Dials turn with the pointer. -/
def rotaryScript : List String :=
  ["",
   "  families.rotary = function (el, b, relay) \x7b",
   "    var c = b.config;",
   "    var ch = channel(relay, b.parameterId);",
   "    var fill = el.querySelector('.rotary-fill');",
   "    var indicator = el.querySelector('.rotary-indicator');",
   "    var thumb = el.querySelector('.rotary-thumb');",
   "    var readout = el.querySelector('.knob-value');",
   "    var cx = c.size / 2;",
   "    var r = Math.max((c.size - c.trackWidth) / 2, 1);",
   "    var value = c.value;",
   "",
   "    function render(v) \x7b",
   "      value = clamp(v, 0, 1);",
   "      if (c.steps > 1) value = Math.round(value * (c.steps - 1)) / (c.steps - 1);",
   "      el.style.setProperty('--value', value.toFixed(4));",
   "      el.setAttribute('aria-valuenow', (c.min + value * (c.max - c.min)).toFixed(4));",
   "      var angle = c.startAngle + value * (c.endAngle - c.startAngle);",
   "      if (fill) \x7b",
   "        if (c.detent) \x7b",
   "          var mid = (c.startAngle + c.endAngle) / 2;",
   "          fill.setAttribute('d', describeArc(cx, cx, r, Math.min(mid, angle), "
      ++ "Math.max(mid, angle)));",
   "        \x7d else \x7b",
   "          fill.setAttribute('d', value > 0.001 ? describeArc(cx, cx, r, c.startAngle, "
      ++ "angle) : '');",
   "        \x7d",
   "      \x7d",
   "      var dot = thumb || (indicator && indicator.tagName.toLowerCase() === 'circle' ? "
      ++ "indicator : null);",
   "      if (dot) \x7b",
   "        var p = polar(cx, cx, thumb ? r : r * 0.9, angle);",
   "        dot.setAttribute('cx', p.x.toFixed(3));",
   "        dot.setAttribute('cy', p.y.toFixed(3));",
   "      \x7d else if (indicator) \x7b",
   "        var a = polar(cx, cx, r * 0.4, angle);",
   "        var z = polar(cx, cx, r * 0.9, angle);",
   "        indicator.setAttribute('x1', a.x.toFixed(3));",
   "        indicator.setAttribute('y1', a.y.toFixed(3));",
   "        indicator.setAttribute('x2', z.x.toFixed(3));",
   "        indicator.setAttribute('y2', z.y.toFixed(3));",
   "      \x7d",
   "      if (readout) readout.textContent = formatValue(value, c);",
   "    \x7d",
   "",
   "    function update(v) \x7b",
   "      if (c.detent && Math.abs(v - 0.5) < c.detentWidth) v = 0.5;",
   "      render(v);",
   "      ch.set(value);",
   "    \x7d",
   "",
   "    var startY = 0;",
   "    var startValue = 0;",
   "    drag(el, \x7b",
   "      start: function (e) \x7b startY = e.clientY; startValue = value; ch.begin(); \x7d,",
   "      move: function (e) \x7b update(startValue + (startY - e.clientY) * 0.005); \x7d,",
   "      end: function () \x7b ch.end(); \x7d",
   "    \x7d);",
   "    el.addEventListener('dblclick', function () \x7b update(c.defaultValue); \x7d);",
   "    arrows(el, function () \x7b return value; \x7d, update);",
   "    sync(relay, ch, value, render);",
   "  \x7d;"]

/-- Sliders follow the pointer. -/
def linearScript : List String :=
  ["",
   "  families.linear = function (el, b, relay) \x7b",
   "    var c = b.config;",
   "    var ch = channel(relay, b.parameterId);",
   "    var vertical = c.orientation === 'vertical';",
   "    var readout = el.querySelector('.slider-value');",
   "    var value = c.value;",
   "",
   "    function render(v) \x7b",
   "      value = clamp(v, 0, 1);",
   "      if (c.notches > 1 && c.snap) value = Math.round(value * (c.notches - 1)) / "
      ++ "(c.notches - 1);",
   "      el.style.setProperty('--value', value.toFixed(4));",
   "      el.setAttribute('aria-valuenow', (c.min + value * (c.max - c.min)).toFixed(4));",
   "      if (readout) readout.textContent = formatValue(value, c);",
   "    \x7d",
   "",
   "    function update(v) \x7b",
   "      render(v);",
   "      ch.set(value);",
   "    \x7d",
   "",
   "    drag(el, \x7b",
   "      start: function (e) \x7b ch.begin(); update(position(el, e, vertical)); \x7d,",
   "      move: function (e) \x7b update(position(el, e, vertical)); \x7d,",
   "      end: function () \x7b ch.end(); \x7d",
   "    \x7d);",
   "    arrows(el, function () \x7b return value; \x7d, update);",
   "    sync(relay, ch, value, render);",
   "  \x7d;"]

/-- The nearer of two thumbs follows the pointer. -/
def rangeScript : List String :=
  ["",
   "  families.range = function (el, b, relay) \x7b",
   "    var c = b.config;",
   "    var vertical = c.orientation === 'vertical';",
   "    var channels = \x7b min: channel(relay, b.parameterId + '_min'), max: "
      ++ "channel(relay, b.parameterId + '_max') \x7d;",
   "    var values = \x7b min: c.minValue, max: c.maxValue \x7d;",
   "    var active = 'min';",
   "",
   "    function render(which, v) \x7b",
   "      v = clamp(v, 0, 1);",
   "      if (which === 'min') values.min = Math.min(v, values.max);",
   "      else values.max = Math.max(v, values.min);",
   "      el.style.setProperty('--min-value', values.min.toFixed(4));",
   "      el.style.setProperty('--max-value', values.max.toFixed(4));",
   "    \x7d",
   "",
   "    function update(v) \x7b",
   "      render(active, v);",
   "      channels[active].set(values[active]);",
   "    \x7d",
   "",
   "    drag(el, \x7b",
   "      start: function (e) \x7b",
   "        var p = position(el, e, vertical);",
   "        active = Math.abs(p - values.min) <= Math.abs(p - values.max) ? 'min' : 'max';",
   "        channels[active].begin();",
   "        update(p);",
   "      \x7d,",
   "      move: function (e) \x7b update(position(el, e, vertical)); \x7d,",
   "      end: function () \x7b channels[active].end(); \x7d",
   "    \x7d);",
   "    sync(relay, channels.min, values.min, function (v) \x7b render('min', v); \x7d);",
   "    sync(relay, channels.max, values.max, function (v) \x7b render('max', v); \x7d);",
   "  \x7d;"]

/-- Every band follows the pointer. -/
def multiSliderScript : List String :=
  ["",
   "  families.multislider = function (el, b, relay) \x7b",
   "    var vertical = b.config.orientation === 'vertical';",
   "    el.querySelectorAll('.multislider-band').forEach(function (band) \x7b",
   "      var ch = channel(relay, b.parameterId + '_band_' + band.getAttribute('data-index'));",
   "      var value = parseFloat(band.style.getPropertyValue('--value')) || 0;",
   "      function render(v) \x7b",
   "        value = clamp(v, 0, 1);",
   "        band.style.setProperty('--value', value.toFixed(4));",
   "      \x7d",
   "      function update(e) \x7b",
   "        render(position(band, e, vertical));",
   "        ch.set(value);",
   "      \x7d",
   "      drag(band, \x7b",
   "        start: function (e) \x7b ch.begin(); update(e); \x7d,",
   "        move: update,",
   "        end: function () \x7b ch.end(); \x7d",
   "      \x7d);",
   "      sync(relay, ch, value, render);",
   "    \x7d);",
   "  \x7d;"]

/-- Bars, buttons and noise drawn with characters. -/
def asciiScript : List String :=
  ["",
   "  function asciiSlider(el, b, relay) \x7b",
   "    var c = b.config;",
   "    var ch = channel(relay, b.parameterId);",
   "    var value = c.value;",
   "    function render(v) \x7b",
   "      value = clamp(v, 0, 1);",
   "      var filled = Math.round(value * c.barWidth);",
   "      el.textContent = '[' + repeat(c.fillChar, filled) + repeat(c.emptyChar, "
      ++ "c.barWidth - filled) + ']';",
   "      el.setAttribute('aria-valuenow', (c.min + value * (c.max - c.min)).toFixed(4));",
   "    \x7d",
   "    function update(v) \x7b",
   "      render(v);",
   "      ch.set(value);",
   "    \x7d",
   "    drag(el, \x7b",
   "      start: function (e) \x7b ch.begin(); update(position(el, e, false)); \x7d,",
   "      move: function (e) \x7b update(position(el, e, false)); \x7d,",
   "      end: function () \x7b ch.end(); \x7d",
   "    \x7d);",
   "    arrows(el, function () \x7b return value; \x7d, update);",
   "    sync(relay, ch, value, render);",
   "  \x7d",
   "",
   "  function asciiButton(el, b, relay) \x7b",
   "    var c = b.config;",
   "    var ch = channel(relay, b.parameterId);",
   "    var pressed = c.pressed;",
   "    function render(v) \x7b",
   "      pressed = v >= 0.5;",
   "      el.textContent = pressed ? c.pressedLabel : c.label;",
   "      el.setAttribute('aria-pressed', pressed ? 'true' : 'false');",
   "    \x7d",
   "    if (c.mode === 'momentary') \x7b",
   "      el.addEventListener('pointerdown', function () \x7b ch.begin(); render(1); "
      ++ "ch.set(1); \x7d);",
   "      el.addEventListener('pointerup', function () \x7b render(0); ch.set(0); "
      ++ "ch.end(); \x7d);",
   "    \x7d else \x7b",
   "      el.addEventListener('click', function () \x7b render(pressed ? 0 : 1); "
      ++ "ch.set(pressed ? 1 : 0); \x7d);",
   "    \x7d",
   "    sync(relay, ch, pressed ? 1 : 0, render);",
   "  \x7d",
   "",
   "  function asciiNoise(el, b) \x7b",
   "    var c = b.config;",
   "    function frame() \x7b",
   "      var lines = [];",
   "      for (var row = 0; row < c.rows; row++) \x7b",
   "        var line = '';",
   "        for (var col = 0; col < c.columns; col++) \x7b",
   "          line += c.characters.charAt(Math.floor(Math.random() * c.characters.length));",
   "        \x7d",
   "        lines.push(line);",
   "      \x7d",
   "      el.textContent = lines.join('\\n');",
   "    \x7d",
   "    frame();",
   "    setInterval(frame, c.interval);",
   "  \x7d",
   "",
   "  families.ascii = function (el, b, relay) \x7b",
   "    if (b.kind === 'asciislider') asciiSlider(el, b, relay);",
   "    else if (b.kind === 'asciibutton') asciiButton(el, b, relay);",
   "    else if (b.config.contentType === 'noise') asciiNoise(el, b);",
   "  \x7d;"]

end ControlSurface.Script
