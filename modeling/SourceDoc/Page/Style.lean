import SourceDoc.Text.Basic

/-!
# The style of HTML pages

The style sheet, and the template of a page that uses it.
-/

namespace SourceDoc.Html

/-- The rules of the style sheet, one a line. -/
def styleRules : List String :=
  ["* \x7b margin: 0; padding: 0; box-sizing: border-box; \x7d",
    "body \x7b font-family: -apple-system, BlinkMacSystemFont, 'Segoe UI', Roboto, sans-serif; line-height: 1.6; color: #333; background: #f8f9fa; \x7d",
    ".container \x7b max-width: 1200px; margin: 0 auto; padding: 20px; background: white; min-height: 100vh; \x7d",
    ".header \x7b border-bottom: 2px solid #e9ecef; padding-bottom: 20px; margin-bottom: 30px; \x7d",
    ".header h1 \x7b color: #2c3e50; margin-bottom: 10px; font-size: 2.5em; \x7d",
    ".header .meta \x7b color: #6c757d; font-size: 0.9em; \x7d",
    ".description \x7b background: #f8f9fa; padding: 20px; border-radius: 8px; margin-bottom: 30px; border-left: 4px solid #007bff; \x7d",
    ".unavailable \x7b background: #fff3cd; padding: 12px 20px; border-radius: 8px; margin-bottom: 30px; \x7d",
    ".toc \x7b border: 1px solid #e9ecef; border-radius: 8px; padding: 20px; margin-bottom: 30px; \x7d",
    ".toc ul \x7b list-style: none; \x7d",
    ".toc a \x7b color: #007bff; text-decoration: none; \x7d",
    ".section \x7b margin-bottom: 40px; \x7d",
    ".section h2 \x7b color: #2c3e50; margin-bottom: 20px; padding-bottom: 10px; border-bottom: 1px solid #e9ecef; \x7d",
    ".function, .class, .export \x7b border: 1px solid #e9ecef; border-radius: 8px; padding: 25px; margin-bottom: 25px; \x7d",
    ".function h3, .class h3, .export h3 \x7b color: #2c3e50; margin-bottom: 15px; font-family: 'Monaco', 'Menlo', monospace; \x7d",
    ".signature, .example \x7b background: #f8f9fa; border: 1px solid #e9ecef; border-radius: 6px; padding: 15px; margin: 15px 0; font-family: 'Monaco', 'Menlo', monospace; overflow-x: auto; \x7d",
    ".param \x7b background: #f8f9fa; border-left: 3px solid #28a745; padding: 10px 15px; margin-bottom: 8px; \x7d",
    ".param-name \x7b font-weight: bold; font-family: 'Monaco', 'Menlo', monospace; \x7d",
    ".param-type \x7b color: #6f42c1; font-family: 'Monaco', 'Menlo', monospace; \x7d",
    ".method \x7b border-left: 3px solid #17a2b8; padding-left: 20px; margin-bottom: 20px; \x7d",
    ".footer \x7b margin-top: 50px; padding-top: 20px; border-top: 1px solid #e9ecef; text-align: center; color: #6c757d; \x7d",
    "code \x7b background: #f8f9fa; color: #e83e8c; padding: 2px 6px; border-radius: 3px; \x7d",
    ".badge \x7b display: inline-block; padding: 3px 8px; font-size: 0.75em; font-weight: bold; border-radius: 12px; text-transform: uppercase; margin-right: 8px; \x7d",
    ".badge-async \x7b background: #28a745; color: white; \x7d",
    ".badge-generator \x7b background: #6f42c1; color: white; \x7d",
    ".badge-static \x7b background: #17a2b8; color: white; \x7d",
    ".badge-private \x7b background: #dc3545; color: white; \x7d",
    ".badge-protected \x7b background: #ffc107; color: #212529; \x7d"]

/-- The style sheet. -/
def style : Text :=
  '\n' :: styleRules.flatMap fun rule => List.replicate 8 ' ' ++ rule.toList ++ ['\n']

/-- The lines of the template before the style sheet; the last one goes on behind it. -/
def templateHead : List String :=
  ["<!DOCTYPE html>",
    "<html lang=\"en\">",
    "<head>",
    "    <meta charset=\"UTF-8\">",
    "    <meta name=\"viewport\" content=\"width=device-width, initial-scale=1.0\">",
    "    <title>\x7b\x7bTITLE\x7d\x7d - Documentation</title>",
    "    <style>"]

/-- The lines of the template after the style sheet. -/
def templateTail : List String :=
  ["    </style>",
    "</head>",
    "<body>",
    "    <div class=\"container\">",
    "        <div class=\"header\">",
    "            <h1>\x7b\x7bTITLE\x7d\x7d</h1>",
    "            <div class=\"meta\">",
    "                <strong>File:</strong> <code>\x7b\x7bFILE_PATH\x7d\x7d</code><br>",
    "                <strong>Language:</strong> \x7b\x7bLANGUAGE\x7d\x7d",
    "            </div>",
    "        </div>",
    "        <div class=\"description\">\x7b\x7bDESCRIPTION\x7d\x7d</div>",
    "        \x7b\x7bTABLE_OF_CONTENTS\x7d\x7d",
    "        \x7b\x7bFUNCTIONS\x7d\x7d",
    "        \x7b\x7bCLASSES\x7d\x7d",
    "        \x7b\x7bEXPORTS\x7d\x7d",
    "        \x7b\x7bUSAGE\x7d\x7d",
    "        \x7b\x7bNOTES\x7d\x7d",
    "        <div class=\"footer\">Generated by autodocs on \x7b\x7bGENERATED_DATE\x7d\x7d</div>",
    "    </div>",
    "</body>",
    "</html>",
    ""]

/-- The template of a page. -/
def defaultTemplate : Text :=
  Text.joinLines (templateHead.map String.toList) ++ style ++ Text.joinLines (templateTail.map String.toList)

end SourceDoc.Html
