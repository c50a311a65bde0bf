import Gamewire.Client.Part

/-! The panel that shows the frame in a page's shared memory: its script and its style sheet. -/
namespace Gamewire.Client
set_option autoImplicit false

def debuggerScriptLines : List String := [
  "// GPIO debugger panel for HOP 'N POP 16. Requires hnp-protocol.js.",
  "(function (global) \x7b",
  "  \"use strict\";",
  "",
  "  const GPIO_SIZE = 128;",
  "  const MEMORY_BASE = 0x5f80;",
  "  const HISTORY = 20;",
  "",
  "  const hnp = global.HNP;",
  "  const cells = [];",
  "  const history = [];",
  "  let lastKey = \"\";",
  "",
  "  const panel = document.createElement(\"div\");",
  "  panel.id = \"hnp-debug\";",
  "  panel.classList.add(\"closed\");",
  "  panel.innerHTML =",
  "    '<button id=\"hnp-debug-toggle\">GPIO</button>' +",
  "    '<div id=\"hnp-debug-title\">PICO-8 GPIO (0x5f80 - 0x5fff)</div>' +",
  "    '<div id=\"hnp-debug-grid\"></div>' +",
  "    '<div id=\"hnp-debug-decoded\">no frame</div>' +",
  "    '<ol id=\"hnp-debug-history\"></ol>';",
  "  document.body.appendChild(panel);",
  "",
  "  const grid = panel.querySelector(\"#hnp-debug-grid\");",
  "  const decoded = panel.querySelector(\"#hnp-debug-decoded\");",
  "  const historyList = panel.querySelector(\"#hnp-debug-history\");",
  "",
  "  panel.querySelector(\"#hnp-debug-toggle\").addEventListener(\"click\", function () \x7b",
  "    panel.classList.toggle(\"closed\");",
  "  \x7d);",
  "",
  "  for (let i = 0; i < GPIO_SIZE; i++) \x7b",
  "    const cell = document.createElement(\"div\");",
  "    cell.className = \"hnp-debug-cell\";",
  "    cell.title = \"pin \" + (i + 1) + \" @ 0x\" + (MEMORY_BASE + i).toString(16);",
  "    cells.push(cell);",
  "    grid.appendChild(cell);",
  "  \x7d",
  "",
  "  function describe(out) \x7b",
  "    return out.name + \" \" + JSON.stringify(out.msg);",
  "  \x7d",
  "",
  "  function refresh() \x7b",
  "    const gpio = global.pico8_gpio || [];",
  "    for (let i = 0; i < GPIO_SIZE; i++) \x7b",
  "      const value = gpio[i] || 0;",
  "      cells[i].textContent = value;",
  "      cells[i].classList.toggle(\"set\", value !== 0);",
  "    \x7d",
  "",
  "    if (hnp && gpio.length > 0) \x7b",
  "      let text;",
  "      try \x7b",
  "        text = describe(hnp.decodeAt(gpio.slice(0, GPIO_SIZE)));",
  "      \x7d catch (e) \x7b",
  "        text = String(e.message || e);",
  "      \x7d",
  "      decoded.textContent = text;",
  "      if (text !== lastKey) \x7b",
  "        lastKey = text;",
  "        history.unshift(text);",
  "        history.length = Math.min(history.length, HISTORY);",
  "        historyList.innerHTML = \"\";",
  "        for (const entry of history) \x7b",
  "          const item = document.createElement(\"li\");",
  "          item.textContent = entry;",
  "          historyList.appendChild(item);",
  "        \x7d",
  "      \x7d",
  "    \x7d",
  "    global.requestAnimationFrame(refresh);",
  "  \x7d",
  "",
  "  global.requestAnimationFrame(refresh);",
  "\x7d)(typeof window !== \"undefined\" ? window : globalThis);"]

def debuggerStyleLines : List String := [
  "#hnp-debug \x7b",
  "  position: fixed;",
  "  top: 0;",
  "  right: 0;",
  "  width: 420px;",
  "  max-height: 100vh;",
  "  overflow-y: auto;",
  "  background: #1d2b53;",
  "  color: #fff1e8;",
  "  font: 11px monospace;",
  "  padding: 6px;",
  "  z-index: 10000;",
  "\x7d",
  "",
  "#hnp-debug.closed \x7b",
  "  width: auto;",
  "\x7d",
  "",
  "#hnp-debug.closed > :not(#hnp-debug-toggle) \x7b",
  "  display: none;",
  "\x7d",
  "",
  "#hnp-debug-toggle \x7b",
  "  background: #ff004d;",
  "  color: #fff1e8;",
  "  border: none;",
  "  padding: 2px 8px;",
  "  cursor: pointer;",
  "\x7d",
  "",
  "#hnp-debug-grid \x7b",
  "  display: grid;",
  "  grid-template-columns: repeat(16, 1fr);",
  "  gap: 1px;",
  "  margin: 6px 0;",
  "\x7d",
  "",
  ".hnp-debug-cell \x7b",
  "  background: #000;",
  "  text-align: center;",
  "  padding: 2px 0;",
  "\x7d",
  "",
  ".hnp-debug-cell.set \x7b",
  "  background: #008751;",
  "\x7d",
  "",
  "#hnp-debug-decoded \x7b",
  "  white-space: pre-wrap;",
  "  color: #ffec27;",
  "\x7d",
  "",
  "#hnp-debug-history \x7b",
  "  margin: 6px 0 0;",
  "  padding-left: 18px;",
  "  color: #c2c3c7;",
  "\x7d"]

def debuggerScript : String := fileText debuggerScriptLines

def debuggerStyle : String := fileText debuggerStyleLines

end Gamewire.Client
