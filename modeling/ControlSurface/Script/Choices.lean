/-
  ControlSurface.Script.Choices
  ─────────────────────────────
  The behaviour of switches, menus and steppers, and of controls that choose among texts.
-/

namespace ControlSurface.Script

/-- Switches and buttons. -/
def switchScript : List String :=
  ["",
   "  families['switch'] = function (el, b, relay) \x7b",
   "    var c = b.config;",
   "    var ch = channel(relay, b.parameterId);",
   "    if (c.navigate) return;",
   "",
   "    if (b.kind === 'checkbox') \x7b",
   "      var box = el.querySelector('input[type=\"checkbox\"]');",
   "      sync(relay, ch, c.on ? 1 : 0, function (v) \x7b box.checked = v >= 0.5; \x7d);",
   "      box.addEventListener('change', function () \x7b ch.set(box.checked ? 1 : 0); \x7d);",
   "      return;",
   "    \x7d",
   "",
   "    if (b.kind === 'rockerswitch') \x7b",
   "      var positionValue = c.position;",
   "      var renderRocker = function (v) \x7b",
   "        positionValue = Math.round(clamp(v, 0, 1) * 2);",
   "        el.setAttribute('data-position', String(positionValue));",
   "      \x7d;",
   "      el.addEventListener('pointerdown', function (e) \x7b",
   "        var rect = el.getBoundingClientRect();",
   "        var upper = e.clientY - rect.top < rect.height / 2;",
   "        var next = upper ? Math.min(positionValue + 1, 2) : Math.max(positionValue - 1, 0);",
   "        ch.begin();",
   "        renderRocker(next / 2);",
   "        ch.set(next / 2);",
   "      \x7d);",
   "      el.addEventListener('pointerup', function () \x7b",
   "        if (c.mode === 'spring-to-center') \x7b",
   "          renderRocker(0.5);",
   "          ch.set(0.5);",
   "        \x7d",
   "        ch.end();",
   "      \x7d);",
   "      sync(relay, ch, c.position / 2, renderRocker);",
   "      return;",
   "    \x7d",
   "",
   "    var attribute = b.kind === 'toggleswitch' ? 'aria-checked' : 'aria-pressed';",
   "    var on = !!c.on;",
   "    function render(v) \x7b",
   "      on = v >= 0.5;",
   "      el.setAttribute(attribute, on ? 'true' : 'false');",
   "    \x7d",
   "    if (c.mode === 'momentary') \x7b",
   "      el.addEventListener('pointerdown', function () \x7b ch.begin(); render(1); "
      ++ "ch.set(1); \x7d);",
   "      el.addEventListener('pointerup', function () \x7b render(0); ch.set(0); "
      ++ "ch.end(); \x7d);",
   "      el.addEventListener('pointerleave', function () \x7b if (on) \x7b render(0); "
      ++ "ch.set(0); ch.end(); \x7d \x7d);",
   "    \x7d else \x7b",
   "      el.addEventListener('click', function () \x7b",
   "        render(on ? 0 : 1);",
   "        ch.set(on ? 1 : 0);",
   "      \x7d);",
   "    \x7d",
   "    sync(relay, ch, on ? 1 : 0, render);",
   "  \x7d;"]

/-- Menus open and close. -/
def menuScript : List String :=
  ["",
   "  families.menu = function (el) \x7b",
   "    var toggle = el.querySelector('.menu-toggle');",
   "    var items = el.querySelector('.menu-items');",
   "    function close() \x7b",
   "      items.setAttribute('hidden', '');",
   "      toggle.setAttribute('aria-expanded', 'false');",
   "    \x7d",
   "    toggle.addEventListener('click', function () \x7b",
   "      if (items.hasAttribute('hidden')) \x7b",
   "        items.removeAttribute('hidden');",
   "        toggle.setAttribute('aria-expanded', 'true');",
   "      \x7d else \x7b",
   "        close();",
   "      \x7d",
   "    \x7d);",
   "    items.addEventListener('click', function (e) \x7b",
   "      var item = e.target.closest('[data-index]');",
   "      if (!item) return;",
   "      emit(el, \x7b index: Number(item.getAttribute('data-index')), label: "
      ++ "item.textContent \x7d);",
   "      close();",
   "    \x7d);",
   "    document.addEventListener('click', function (e) \x7b if (!el.contains(e.target)) "
      ++ "close(); \x7d);",
   "  \x7d;"]

/-- Steppers go up and down. -/
def stepperScript : List String :=
  ["",
   "  families.stepper = function (el, b, relay) \x7b",
   "    var c = b.config;",
   "    var ch = channel(relay, b.parameterId);",
   "    var display = el.querySelector('.stepper-value');",
   "    var value = c.value;",
   "    var span = c.max - c.min;",
   "",
   "    function render(v) \x7b",
   "      value = c.min + clamp(v, 0, 1) * span;",
   "      display.textContent = value.toFixed(c.decimalPlaces);",
   "      el.setAttribute('aria-valuenow', value.toFixed(c.decimalPlaces));",
   "    \x7d",
   "    function step(direction) \x7b",
   "      var next = clamp(value + direction * c.step, c.min, c.max);",
   "      var norm = span ? (next - c.min) / span : 0;",
   "      render(norm);",
   "      ch.set(norm);",
   "    \x7d",
   "    el.querySelector('.stepper-dec').addEventListener('click', function () \x7b "
      ++ "step(-1); \x7d);",
   "    el.querySelector('.stepper-inc').addEventListener('click', function () \x7b "
      ++ "step(1); \x7d);",
   "    sync(relay, ch, span ? (value - c.min) / span : 0, render);",
   "  \x7d;"]

/-- One of several is chosen. -/
def choiceScript : List String :=
  ["",
   "  families.choice = function (el, b, relay) \x7b",
   "    var c = b.config;",
   "    var ch = channel(relay, b.parameterId);",
   "    var count = c.count;",
   "    var index = c.index;",
   "",
   "    function render(i) \x7b",
   "      index = count > 0 ? clamp(i, 0, count - 1) : -1;",
   "      switch (b.kind) \x7b",
   "        case 'rotaryswitch':",
   "          var angle = c.startAngle + (count > 1 ? index * (c.endAngle - c.startAngle) "
      ++ "/ (count - 1) : 0);",
   "          el.style.setProperty('--pointer-angle', angle + 'deg');",
   "          el.setAttribute('aria-valuenow', String(index));",
   "          break;",
   "        case 'segmentbutton':",
   "          el.querySelectorAll('.segment').forEach(function (s) \x7b",
   "            s.classList.toggle('is-selected', Number(s.getAttribute('data-index')) === "
      ++ "index);",
   "          \x7d);",
   "          break;",
   "        case 'dropdown':",
   "          el.value = String(index);",
   "          break;",
   "        case 'combobox':",
   "          el.querySelector('input').value = index >= 0 ? c.options[index] : '';",
   "          break;",
   "        case 'radiogroup':",
   "          el.querySelectorAll('input[type=\"radio\"]').forEach(function (r) \x7b "
      ++ "r.checked = Number(r.value) === index; \x7d);",
   "          break;",
   "        case 'tabbar':",
   "          el.querySelectorAll('.tab').forEach(function (t) \x7b",
   "            t.setAttribute('aria-selected', Number(t.getAttribute('data-index')) === "
      ++ "index ? 'true' : 'false');",
   "          \x7d);",
   "          break;",
   "      \x7d",
   "    \x7d",
   "",
   "    function choose(i) \x7b",
   "      render(i);",
   "      ch.set(indexToValue(index, count));",
   "      emit(el, \x7b index: index \x7d);",
   "    \x7d",
   "",
   "    switch (b.kind) \x7b",
   "      case 'rotaryswitch':",
   "        el.addEventListener('click', function () \x7b choose(count ? (index + 1) % "
      ++ "count : 0); \x7d);",
   "        break;",
   "      case 'dropdown':",
   "        el.addEventListener('change', function () \x7b choose(Number(el.value)); \x7d);",
   "        break;",
   "      case 'combobox':",
   "        el.querySelector('input').addEventListener('change', function (e) \x7b",
   "          var i = c.options.indexOf(e.target.value);",
   "          if (i >= 0) choose(i);",
   "        \x7d);",
   "        break;",
   "      case 'radiogroup':",
   "        el.addEventListener('change', function (e) \x7b "
      ++ "choose(Number(e.target.value)); \x7d);",
   "        break;",
   "      default:",
   "        el.addEventListener('click', function (e) \x7b",
   "          var target = e.target.closest('[data-index]');",
   "          if (target && el.contains(target)) "
      ++ "choose(Number(target.getAttribute('data-index')));",
   "        \x7d);",
   "    \x7d",
   "    var initial = index >= 0 ? indexToValue(index, count) : 0;",
   "    if (index < 0) render(-1);",
   "    else sync(relay, ch, initial, function (v) \x7b render(valueToIndex(v, count)); \x7d);",
   "  \x7d;"]

/-- Some of several are chosen. -/
def multiChoiceScript : List String :=
  ["",
   "  families.multichoice = function (el, b, relay) \x7b",
   "    var c = b.config;",
   "    var toggle = el.querySelector('.multiselect-toggle');",
   "    var list = el.querySelector('.multiselect-options');",
   "    var boxes = el.querySelectorAll('input[type=\"checkbox\"]');",
   "",
   "    function summary() \x7b",
   "      var chosen = [];",
   "      boxes.forEach(function (box, i) \x7b if (box.checked) chosen.push(c.options[i]); "
      ++ "\x7d);",
   "      toggle.textContent = chosen.length ? chosen.join(', ') : 'Select...';",
   "    \x7d",
   "",
   "    toggle.addEventListener('click', function () \x7b",
   "      var open = list.hasAttribute('hidden');",
   "      if (open) list.removeAttribute('hidden'); else list.setAttribute('hidden', '');",
   "      toggle.setAttribute('aria-expanded', open ? 'true' : 'false');",
   "    \x7d);",
   "    document.addEventListener('click', function (e) \x7b",
   "      if (!el.contains(e.target)) \x7b",
   "        list.setAttribute('hidden', '');",
   "        toggle.setAttribute('aria-expanded', 'false');",
   "      \x7d",
   "    \x7d);",
   "    boxes.forEach(function (box, i) \x7b",
   "      var ch = channel(relay, b.parameterId + '_' + i);",
   "      box.addEventListener('change', function () \x7b",
   "        var count = 0;",
   "        boxes.forEach(function (other) \x7b if (other.checked) count++; \x7d);",
   "        if (box.checked && c.maxSelections > 0 && count > c.maxSelections) \x7b",
   "          box.checked = false;",
   "          return;",
   "        \x7d",
   "        ch.set(box.checked ? 1 : 0);",
   "        summary();",
   "      \x7d);",
   "      sync(relay, ch, box.checked ? 1 : 0, function (v) \x7b",
   "        box.checked = v >= 0.5;",
   "        summary();",
   "      \x7d);",
   "    \x7d);",
   "  \x7d;"]

/-- Paths, trees and lists. -/
def listScript : List String :=
  ["",
   "  families.list = function (el, b) \x7b",
   "    if (b.kind === 'breadcrumb') \x7b",
   "      el.addEventListener('click', function (e) \x7b",
   "        var item = e.target.closest('.breadcrumb-item');",
   "        if (!item) return;",
   "        el.querySelectorAll('.breadcrumb-item').forEach(function (other) \x7b "
      ++ "other.removeAttribute('aria-current'); \x7d);",
   "        item.setAttribute('aria-current', 'page');",
   "        emit(el, \x7b index: Number(item.getAttribute('data-index')), label: "
      ++ "item.textContent \x7d);",
   "      \x7d);",
   "      return;",
   "    \x7d",
   "    if (b.kind === 'treeview') \x7b",
   "      el.addEventListener('click', function (e) \x7b",
   "        var label = e.target.closest('.tree-label');",
   "        if (!label) return;",
   "        var node = label.parentElement;",
   "        var group = node.querySelector(':scope > ul');",
   "        if (group) \x7b",
   "          var expanded = group.hasAttribute('hidden');",
   "          if (expanded) group.removeAttribute('hidden'); else "
      ++ "group.setAttribute('hidden', '');",
   "          node.setAttribute('aria-expanded', expanded ? 'true' : 'false');",
   "        \x7d else \x7b",
   "          emit(el, \x7b label: label.textContent \x7d);",
   "        \x7d",
   "      \x7d);",
   "      return;",
   "    \x7d",
   "    var search = el.querySelector('.preset-search');",
   "    var items = el.querySelectorAll('.preset-item');",
   "    el.addEventListener('click', function (e) \x7b",
   "      var item = e.target.closest('.preset-item');",
   "      if (!item) return;",
   "      items.forEach(function (other) \x7b other.classList.toggle('is-selected', other "
      ++ "=== item); \x7d);",
   "      emit(el, \x7b index: Number(item.getAttribute('data-index')), preset: "
      ++ "b.config.presets[Number(item.getAttribute('data-index'))] \x7d);",
   "    \x7d);",
   "    if (search) \x7b",
   "      search.addEventListener('input', function () \x7b",
   "        var query = search.value.trim().toLowerCase();",
   "        items.forEach(function (item) \x7b",
   "          var name = "
      ++ "b.config.presets[Number(item.getAttribute('data-index'))].toLowerCase();",
   "          if (!query || name.indexOf(query) >= 0) item.removeAttribute('hidden'); else "
      ++ "item.setAttribute('hidden', '');",
   "        \x7d);",
   "      \x7d);",
   "    \x7d",
   "  \x7d;"]

end ControlSurface.Script
