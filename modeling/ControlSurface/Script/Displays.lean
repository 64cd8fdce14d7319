/-
  ControlSurface.Script.Displays
  ──────────────────────────────
  The behaviour of displays, and of instruments and containers.
-/

namespace ControlSurface.Script

/-- Meters follow their parameter. -/
def meterScript : List String :=
  ["",
   "  families.meter = function (el, b, relay) \x7b",
   "    var c = b.config;",
   "    var ch = channel(relay, b.parameterId);",
   "    var readout = el.querySelector('.meter-readout');",
   "    var peak = 0;",
   "    sync(relay, ch, c.value, function (v) \x7b",
   "      var value = clamp(v, 0, 1);",
   "      el.style.setProperty('--value', value.toFixed(4));",
   "      if (c.peakHold) \x7b",
   "        peak = Math.max(peak * 0.995, value);",
   "        el.style.setProperty('--peak', peak.toFixed(4));",
   "      \x7d",
   "      if (readout) readout.textContent = (value * c.maxReduction).toFixed(1) + ' dB';",
   "    \x7d);",
   "  \x7d;"]

/-- Numbers follow their parameter. -/
def readoutScript : List String :=
  ["",
   "  families.readout = function (el, b, relay) \x7b",
   "    var c = b.config;",
   "    var ch = channel(relay, b.parameterId);",
   "    var text = el.querySelector('.readout-value');",
   "    var unit = el.querySelector('.readout-unit');",
   "    sync(relay, ch, c.value, function (v) \x7b",
   "      v = clamp(v, 0, 1);",
   "      if (b.kind === 'frequencydisplay') \x7b",
   "        var hz = 20 * Math.pow(1000, v);",
   "        var khz = c.autoKhz && hz >= 1000;",
   "        text.textContent = (khz ? hz / 1000 : hz).toFixed(c.decimalPlaces);",
   "        if (unit) unit.textContent = khz ? 'kHz' : 'Hz';",
   "      \x7d else \x7b",
   "        var db = c.minDb + v * (c.maxDb - c.minDb);",
   "        text.textContent = v <= 0 ? '-inf' : db.toFixed(c.decimalPlaces);",
   "      \x7d",
   "    \x7d);",
   "  \x7d;"]

/-- Cells of a modulation matrix. -/
def matrixScript : List String :=
  ["",
   "  families.matrix = function (el) \x7b",
   "    el.addEventListener('click', function (e) \x7b",
   "      var cell = e.target.closest('.matrix-cell');",
   "      if (!cell) return;",
   "      var active = cell.getAttribute('data-active') !== 'true';",
   "      cell.setAttribute('data-active', active ? 'true' : 'false');",
   "      emit(el, \x7b",
   "        source: Number(cell.getAttribute('data-source')),",
   "        destination: Number(cell.getAttribute('data-destination')),",
   "        active: active",
   "      \x7d);",
   "    \x7d);",
   "  \x7d;"]

/-- Drawn displays. -/
def canvasScript : List String :=
  ["",
   "  function curve(ctx, w, h, fn, steps) \x7b",
   "    ctx.beginPath();",
   "    for (var i = 0; i <= steps; i++) \x7b",
   "      var t = i / steps;",
   "      var y = clamp(fn(t), 0, 1);",
   "      if (i === 0) ctx.moveTo(t * w, (1 - y) * h); else ctx.lineTo(t * w, (1 - y) * h);",
   "    \x7d",
   "  \x7d",
   "",
   "  var shapes = \x7b",
   "    sine: function (t) \x7b return 0.5 + 0.4 * Math.sin(t * Math.PI * 2); \x7d,",
   "    triangle: function (t) \x7b return 0.1 + 0.8 * (1 - Math.abs((t * 2) % 2 - 1)); \x7d,",
   "    saw: function (t) \x7b return 0.1 + 0.8 * (t % 1); \x7d,",
   "    square: function (t) \x7b return t % 1 < 0.5 ? 0.9 : 0.1; \x7d,",
   "    random: function (t) \x7b return 0.1 + 0.8 * Math.abs(Math.sin(Math.floor(t * 8) * "
      ++ "12.9898) % 1); \x7d",
   "  \x7d;",
   "",
   "  var painters = \x7b",
   "    wave: function (ctx, w, h, c) \x7b",
   "      curve(ctx, w, h, function (t) \x7b return 0.5 + 0.35 * Math.sin(t * Math.PI * 2 "
      ++ "* (c.cycles || 3)); \x7d, 200);",
   "      ctx.stroke();",
   "    \x7d,",
   "    spectrum: function (ctx, w, h, c) \x7b",
   "      curve(ctx, w, h, function (t) \x7b return 0.8 - 0.6 * t + 0.05 * Math.sin(t * "
      ++ "40); \x7d, 200);",
   "      ctx.stroke();",
   "      if (c.fill) \x7b",
   "        ctx.lineTo(w, h);",
   "        ctx.lineTo(0, h);",
   "        ctx.fillStyle = c.fill;",
   "        ctx.fill();",
   "      \x7d",
   "    \x7d,",
   "    spectrogram: function (ctx, w, h, c) \x7b",
   "      for (var x = 0; x < w; x += 4) \x7b",
   "        for (var y = 0; y < h; y += 4) \x7b",
   "          var level = clamp(1 - y / h + 0.2 * Math.sin(x * 0.05), 0, 1);",
   "          ctx.fillStyle = 'rgba(' + Math.round(255 * level) + ',' + Math.round(120 * "
      ++ "level) + ',40,' + level.toFixed(2) + ')';",
   "          ctx.fillRect(x, y, 4, 4);",
   "        \x7d",
   "      \x7d",
   "    \x7d,",
   "    scope: function (ctx, w, h) \x7b",
   "      ctx.beginPath();",
   "      ctx.ellipse(w / 2, h / 2, w * 0.3, h * 0.15, Math.PI / 4, 0, Math.PI * 2);",
   "      ctx.stroke();",
   "    \x7d,",
   "    eq: function (ctx, w, h, c) \x7b",
   "      var range = c.maxGain - c.minGain || 1;",
   "      curve(ctx, w, h, function (t) \x7b",
   "        var octave = t * 10;",
   "        var gain = 0;",
   "        c.bands.forEach(function (band) \x7b",
   "          var center = Math.log(Math.max(band.frequency, 20) / 20) / Math.log(2);",
   "          gain += band.gain * Math.exp(-Math.pow((octave - center) * band.q, 2));",
   "        \x7d);",
   "        return (gain - c.minGain) / range;",
   "      \x7d, 200);",
   "      ctx.stroke();",
   "    \x7d,",
   "    compressor: function (ctx, w, h, c) \x7b",
   "      curve(ctx, w, h, function (t) \x7b",
   "        var input = -60 + t * 60;",
   "        var over = input - c.threshold;",
   "        var out = input;",
   "        if (over > c.knee / 2) out = c.threshold + over / c.ratio;",
   "        else if (over > -c.knee / 2 && c.knee > 0) out = input + (1 / c.ratio - 1) * "
      ++ "Math.pow(over + c.knee / 2, 2) / (2 * c.knee);",
   "        return (out + 60) / 60;",
   "      \x7d, 120);",
   "      ctx.stroke();",
   "    \x7d,",
   "    envelope: function (ctx, w, h, c) \x7b",
   "      var total = c.attack + c.decay + 0.3 + c.release || 1;",
   "      var points = [[0, 0], [c.attack, 1], [c.attack + c.decay, c.sustain], [c.attack "
      ++ "+ c.decay + 0.3, c.sustain], [total, 0]];",
   "      ctx.beginPath();",
   "      points.forEach(function (p, i) \x7b",
   "        var x = p[0] / total * w;",
   "        var y = (1 - p[1] * 0.9) * h;",
   "        if (i === 0) ctx.moveTo(x, y); else ctx.lineTo(x, y);",
   "      \x7d);",
   "      ctx.stroke();",
   "    \x7d,",
   "    lfo: function (ctx, w, h, c) \x7b",
   "      var shape = shapes[c.shape] || shapes.sine;",
   "      curve(ctx, w, h, function (t) \x7b return shape(t * c.cycles); \x7d, 240);",
   "      ctx.stroke();",
   "    \x7d,",
   "    filter: function (ctx, w, h, c) \x7b",
   "      var cutoff = Math.log(Math.max(c.cutoff, 20) / 20) / Math.log(1000);",
   "      curve(ctx, w, h, function (t) \x7b",
   "        var d = (t - cutoff) * 6;",
   "        var bump = c.resonance * 0.15 * Math.exp(-d * d * 4);",
   "        switch (c.filterType) \x7b",
   "          case 'highpass': return (d < 0 ? 0.7 + d * 0.25 : 0.7) + bump;",
   "          case 'bandpass': return 0.7 - Math.abs(d) * 0.25 + bump;",
   "          case 'notch': return 0.7 - 0.6 * Math.exp(-d * d * 8);",
   "          default: return (d > 0 ? 0.7 - d * 0.25 : 0.7) + bump;",
   "        \x7d",
   "      \x7d, 200);",
   "      ctx.stroke();",
   "    \x7d",
   "  \x7d;",
   "",
   "  families.canvas = function (el, b) \x7b",
   "    var c = b.config;",
   "    var canvas = el.querySelector('canvas');",
   "    if (!canvas || !canvas.getContext) return;",
   "    var ctx = canvas.getContext('2d');",
   "    var w = canvas.width;",
   "    var h = canvas.height;",
   "    ctx.fillStyle = c.background;",
   "    ctx.fillRect(0, 0, w, h);",
   "    if (c.showGrid && c.divisions > 0) \x7b",
   "      ctx.strokeStyle = c.grid;",
   "      ctx.lineWidth = 1;",
   "      for (var i = 1; i < c.divisions; i++) \x7b",
   "        ctx.beginPath();",
   "        ctx.moveTo(Math.round(w * i / c.divisions) + 0.5, 0);",
   "        ctx.lineTo(Math.round(w * i / c.divisions) + 0.5, h);",
   "        ctx.moveTo(0, Math.round(h * i / c.divisions) + 0.5);",
   "        ctx.lineTo(w, Math.round(h * i / c.divisions) + 0.5);",
   "        ctx.stroke();",
   "      \x7d",
   "    \x7d",
   "    ctx.strokeStyle = c.trace;",
   "    ctx.lineWidth = 1.5;",
   "    (painters[c.painter] || painters.wave)(ctx, w, h, c);",
   "  \x7d;"]

/-- Piano keys. -/
def keyboardScript : List String :=
  ["",
   "  families.keyboard = function (el, b, relay) \x7b",
   "    var ch = channel(relay, b.parameterId);",
   "    function press(key, down) \x7b",
   "      key.classList.toggle('is-pressed', down);",
   "      var note = Number(key.getAttribute('data-note'));",
   "      if (down) ch.set(note / 127);",
   "      emit(el, \x7b note: note, pressed: down \x7d);",
   "    \x7d",
   "    el.querySelectorAll('.key').forEach(function (key) \x7b",
   "      key.addEventListener('pointerdown', function (e) \x7b e.preventDefault(); "
      ++ "press(key, true); \x7d);",
   "      key.addEventListener('pointerup', function () \x7b press(key, false); \x7d);",
   "      key.addEventListener('pointerleave', function () \x7b if "
      ++ "(key.classList.contains('is-pressed')) press(key, false); \x7d);",
   "    \x7d);",
   "  \x7d;"]

/-- Pads. -/
def padScript : List String :=
  ["",
   "  families.pad = function (el, b, relay) \x7b",
   "    var pads = b.kind === 'drumpad' ? [el] : "
      ++ "Array.prototype.slice.call(el.querySelectorAll('.pad'));",
   "    pads.forEach(function (pad) \x7b",
   "      var suffix = pad === el ? '' : '_' + pad.getAttribute('data-index');",
   "      var ch = channel(relay, b.parameterId + suffix);",
   "      function hit(down) \x7b",
   "        pad.classList.toggle('is-active', down);",
   "        ch.set(down ? 1 : 0);",
   "      \x7d",
   "      pad.addEventListener('pointerdown', function () \x7b ch.begin(); hit(true); \x7d);",
   "      pad.addEventListener('pointerup', function () \x7b hit(false); ch.end(); \x7d);",
   "      pad.addEventListener('pointerleave', function () \x7b if "
      ++ "(pad.classList.contains('is-active')) \x7b hit(false); ch.end(); \x7d \x7d);",
   "    \x7d);",
   "  \x7d;"]

/-- Step sequencers. -/
def gridScript : List String :=
  ["",
   "  families.grid = function (el, b, relay) \x7b",
   "    el.querySelectorAll('.step').forEach(function (step) \x7b",
   "      var ch = channel(relay, b.parameterId + '_' + step.getAttribute('data-index'));",
   "      function render(v) \x7b",
   "        var active = v >= 0.5;",
   "        step.classList.toggle('is-active', active);",
   "        step.setAttribute('aria-pressed', active ? 'true' : 'false');",
   "      \x7d",
   "      step.addEventListener('click', function () \x7b",
   "        var active = !step.classList.contains('is-active');",
   "        render(active ? 1 : 0);",
   "        ch.set(active ? 1 : 0);",
   "      \x7d);",
   "      sync(relay, ch, step.classList.contains('is-active') ? 1 : 0, render);",
   "    \x7d);",
   "  \x7d;"]

/-- Pads with two axes. -/
def xyPadScript : List String :=
  ["",
   "  families.xypad = function (el, b, relay) \x7b",
   "    var c = b.config;",
   "    var chX = channel(relay, c.xParameterId);",
   "    var chY = channel(relay, c.yParameterId);",
   "    var surface = el.querySelector('.xy-surface') || el;",
   "    function renderX(v) \x7b el.style.setProperty('--x', clamp(v, 0, 1).toFixed(4)); \x7d",
   "    function renderY(v) \x7b el.style.setProperty('--y', clamp(v, 0, 1).toFixed(4)); \x7d",
   "    function update(e) \x7b",
   "      var x = position(surface, e, false);",
   "      var y = position(surface, e, true);",
   "      renderX(x);",
   "      renderY(y);",
   "      chX.set(x);",
   "      chY.set(y);",
   "    \x7d",
   "    drag(surface, \x7b",
   "      start: function (e) \x7b chX.begin(); chY.begin(); update(e); \x7d,",
   "      move: update,",
   "      end: function () \x7b chX.end(); chY.end(); \x7d",
   "    \x7d);",
   "    sync(relay, chX, c.x, renderX);",
   "    sync(relay, chY, c.y, renderY);",
   "  \x7d;"]

/-- Loop markers. -/
def loopScript : List String :=
  ["",
   "  families.loop = function (el, b, relay) \x7b",
   "    var c = b.config;",
   "    var channels = \x7b start: channel(relay, b.parameterId + '_start'), end: "
      ++ "channel(relay, b.parameterId + '_end') \x7d;",
   "    var values = \x7b start: c.start, end: c.end \x7d;",
   "    var active = 'start';",
   "    function render(which, v) \x7b",
   "      v = clamp(v, 0, 1);",
   "      if (which === 'start') values.start = Math.min(v, values.end);",
   "      else values.end = Math.max(v, values.start);",
   "      el.style.setProperty('--loop-start', values.start.toFixed(4));",
   "      el.style.setProperty('--loop-end', values.end.toFixed(4));",
   "    \x7d",
   "    function update(e) \x7b",
   "      render(active, position(el, e, false));",
   "      channels[active].set(values[active]);",
   "    \x7d",
   "    drag(el, \x7b",
   "      start: function (e) \x7b",
   "        var p = position(el, e, false);",
   "        active = Math.abs(p - values.start) <= Math.abs(p - values.end) ? 'start' : 'end';",
   "        channels[active].begin();",
   "        update(e);",
   "      \x7d,",
   "      move: update,",
   "      end: function () \x7b channels[active].end(); \x7d",
   "    \x7d);",
   "    sync(relay, channels.start, values.start, function (v) \x7b render('start', v); \x7d);",
   "    sync(relay, channels.end, values.end, function (v) \x7b render('end', v); \x7d);",
   "  \x7d;"]

/-- Bars of harmonics. -/
def harmonicScript : List String :=
  ["",
   "  families.harmonic = function (el, b, relay) \x7b",
   "    var bars = Array.prototype.slice.call(el.querySelectorAll('.harmonic-bar'));",
   "    var channels = bars.map(function (bar) \x7b",
   "      var ch = channel(relay, b.parameterId + '_' + bar.getAttribute('data-index'));",
   "      sync(relay, ch, parseFloat(bar.style.getPropertyValue('--value')) || 0, function "
      ++ "(v) \x7b",
   "        bar.style.setProperty('--value', clamp(v, 0, 1).toFixed(4));",
   "      \x7d);",
   "      return ch;",
   "    \x7d);",
   "    function update(e) \x7b",
   "      var rect = el.getBoundingClientRect();",
   "      var i = Math.floor(clamp((e.clientX - rect.left) / (rect.width || 1), 0, 0.9999) "
      ++ "* bars.length);",
   "      var v = position(el, e, true);",
   "      bars[i].style.setProperty('--value', v.toFixed(4));",
   "      channels[i].set(v);",
   "    \x7d",
   "    drag(el, \x7b start: update, move: update \x7d);",
   "  \x7d;"]

/-- Boxes that open and close. -/
def containerScript : List String :=
  ["",
   "  families.container = function (el) \x7b",
   "    var header = el.querySelector(':scope > .collapsible-header');",
   "    var content = el.querySelector(':scope > .container-content');",
   "    if (!header || !content) return;",
   "    header.addEventListener('click', function () \x7b",
   "      var expand = content.hasAttribute('hidden');",
   "      if (expand) content.removeAttribute('hidden'); else "
      ++ "content.setAttribute('hidden', '');",
   "      header.setAttribute('aria-expanded', expand ? 'true' : 'false');",
   "      emit(el, \x7b collapsed: !expand \x7d);",
   "    \x7d);",
   "  \x7d;"]

end ControlSurface.Script
