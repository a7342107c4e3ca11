import Slideshow.Text.Basic

/-! # The built-in look of a deck

Its style sheet and its script.
-/
namespace Slideshow.Theme

/-- Lines, each with its line break. -/
def closedLines (ls : List String) : Text := ls.flatMap fun l => Text.ofString l ++ ['\n']

def styleSheet : Text :=
  closedLines [
    "html, body \x7b margin: 0; padding: 0; height: 100%; background: #222; font-family: \"Helvetica Neue\", Arial, sans-serif; \x7d",
    ".slides \x7b position: relative; width: 100%; height: 100%; overflow: hidden; \x7d",
    ".slide \x7b display: none; box-sizing: border-box; width: 100%; height: 100%; padding: 4% 8%; background: #fff; color: #333; \x7d",
    ".slide.current \x7b display: block; \x7d",
    ".slide header h1 \x7b font-size: 3em; margin: 0 0 .5em; \x7d",
    ".slide header h2 \x7b font-size: 2.2em; margin: 0 0 .5em; \x7d",
    ".slide .content \x7b font-size: 1.6em; line-height: 1.4; \x7d",
    ".slide footer \x7b position: absolute; right: 2em; bottom: 1em; color: #999; font-size: .8em; \x7d",
    ".slide .notes \x7b display: none; \x7d",
    ".slide .qr \x7b text-align: center; \x7d",
    ".slide.expose .content, .slide.center .content \x7b text-align: center; \x7d",
    ".presenter-notes \x7b display: none; \x7d",
    "body.presenter .presenter-notes \x7b display: block; position: absolute; bottom: 3em; left: 8%; right: 8%; font-size: 1em; background: #ffe; padding: .5em 1em; \x7d",
    "body.show-notes .slide .notes \x7b display: block; color: #a00; \x7d",
    "pre \x7b background: #f4f4f4; padding: .5em 1em; overflow: auto; font-size: .8em; \x7d",
    "#toc \x7b position: absolute; z-index: 10; top: 1em; left: 1em; background: #fff; padding: 1em 2em; max-height: 90%; overflow: auto; \x7d",
    "#toc.hidden \x7b display: none; \x7d",
    "@media print \x7b",
    "  .slide \x7b display: block; page-break-after: always; height: auto; \x7d",
    "  #toc, .presenter-notes \x7b display: none; \x7d",
    "\x7d"]

def script : Text :=
  closedLines [
    "(function () \x7b",
    "  var slides = document.querySelectorAll('.slides > .slide');",
    "  var current = 0;",
    "",
    "  function show(index) \x7b",
    "    if (index < 0 || index >= slides.length) \x7b return; \x7d",
    "    slides[current].classList.remove('current');",
    "    current = index;",
    "    slides[current].classList.add('current');",
    "    window.location.hash = slides[current].id;",
    "  \x7d",
    "",
    "  function fromHash() \x7b",
    "    for (var i = 0; i < slides.length; i++) \x7b",
    "      if ('#' + slides[i].id === window.location.hash) \x7b return i; \x7d",
    "    \x7d",
    "    return 0;",
    "  \x7d",
    "",
    "  document.addEventListener('keydown', function (e) \x7b",
    "    switch (e.key) \x7b",
    "      case 'ArrowRight': case 'ArrowDown': case 'PageDown': case ' ': show(current + 1); break;",
    "      case 'ArrowLeft': case 'ArrowUp': case 'PageUp': show(current - 1); break;",
    "      case 'Home': show(0); break;",
    "      case 'End': show(slides.length - 1); break;",
    "      case 't': document.getElementById('toc').classList.toggle('hidden'); break;",
    "      case 'n': document.body.classList.toggle('show-notes'); break;",
    "      case 'p': document.body.classList.toggle('presenter'); break;",
    "    \x7d",
    "  \x7d);",
    "",
    "  document.querySelectorAll('#toc a').forEach(function (link) \x7b",
    "    link.addEventListener('click', function () \x7b",
    "      document.getElementById('toc').classList.add('hidden');",
    "      setTimeout(function () \x7b show(fromHash()); \x7d, 0);",
    "    \x7d);",
    "  \x7d);",
    "",
    "  if (slides.length) \x7b",
    "    current = fromHash();",
    "    slides[current].classList.add('current');",
    "  \x7d",
    "\x7d)();"]

end Slideshow.Theme
