/- The packaged templates of an entity's API documentation: its paths and its definition. -/

namespace EntityScaffold.Template.Packaged

def docPaths : List String := [
  "const $\x7bmodelName\x7dPaths = \x7b",
  "    '$\x7bapiPrefix\x7d/$\x7bpluralModelName\x7d/create': \x7b",
  "        post: \x7b",
  "            tags: ['$\x7bModelName\x7d'],",
  "            summary: 'Create a new $\x7bmodelName\x7d',",
  "            security: [\x7b bearerAuth: [] \x7d],",
  "            requestBody: \x7b",
  "                required: true,",
  "                content: \x7b",
  "                    'application/json': \x7b",
  "                        schema: \x7b $ref: '#/definitions/$\x7bModelName\x7d' \x7d,",
  "                    \x7d,",
  "                \x7d,",
  "            \x7d,",
  "            responses: \x7b",
  "                '201': \x7b description: '$\x7bModelName\x7d created successfully' \x7d,",
  "                '400': \x7b description: 'Validation failed' \x7d,",
  "                '500': \x7b description: 'Internal server error' \x7d,",
  "            \x7d,",
  "        \x7d,",
  "    \x7d,",
  "    '$\x7bapiPrefix\x7d/$\x7bpluralModelName\x7d/all': \x7b",
  "        get: \x7b",
  "            tags: ['$\x7bModelName\x7d'],",
  "            summary: 'List $\x7bpluralModelName\x7d',",
  "            security: [\x7b bearerAuth: [] \x7d],",
  "            parameters: [",
  "                \x7b name: 'page', in: 'query', required: false, schema: \x7b type: 'integer' \x7d \x7d,",
  "                \x7b name: 'limit', in: 'query', required: false, schema: \x7b type: 'integer' \x7d \x7d,",
  "            ],",
  "            responses: \x7b",
  "                '200': \x7b description: 'List of $\x7bpluralModelName\x7d' \x7d,",
  "                '500': \x7b description: 'Internal server error' \x7d,",
  "            \x7d,",
  "        \x7d,",
  "    \x7d,",
  "    '$\x7bapiPrefix\x7d/$\x7bpluralModelName\x7d/\x7bid\x7d': \x7b",
  "        get: \x7b",
  "            tags: ['$\x7bModelName\x7d'],",
  "            summary: 'Get a $\x7bmodelName\x7d by id',",
  "            security: [\x7b bearerAuth: [] \x7d],",
  "            parameters: [\x7b name: 'id', in: 'path', required: true, schema: \x7b type: 'integer' \x7d \x7d],",
  "            responses: \x7b",
  "                '200': \x7b description: '$\x7bModelName\x7d found' \x7d,",
  "                '404': \x7b description: '$\x7bModelName\x7d not found' \x7d,",
  "            \x7d,",
  "        \x7d,",
  "        put: \x7b",
  "            tags: ['$\x7bModelName\x7d'],",
  "            summary: 'Update a $\x7bmodelName\x7d',",
  "            security: [\x7b bearerAuth: [] \x7d],",
  "            parameters: [\x7b name: 'id', in: 'path', required: true, schema: \x7b type: 'integer' \x7d \x7d],",
  "            requestBody: \x7b",
  "                required: true,",
  "                content: \x7b",
  "                    'application/json': \x7b",
  "                        schema: \x7b $ref: '#/definitions/$\x7bModelName\x7d' \x7d,",
  "                    \x7d,",
  "                \x7d,",
  "            \x7d,",
  "            responses: \x7b",
  "                '200': \x7b description: '$\x7bModelName\x7d updated successfully' \x7d,",
  "                '400': \x7b description: 'Validation failed' \x7d,",
  "                '404': \x7b description: '$\x7bModelName\x7d not found' \x7d,",
  "            \x7d,",
  "        \x7d,",
  "        delete: \x7b",
  "            tags: ['$\x7bModelName\x7d'],",
  "            summary: 'Delete a $\x7bmodelName\x7d',",
  "            security: [\x7b bearerAuth: [] \x7d],",
  "            parameters: [\x7b name: 'id', in: 'path', required: true, schema: \x7b type: 'integer' \x7d \x7d],",
  "            responses: \x7b",
  "                '200': \x7b description: '$\x7bModelName\x7d deleted successfully' \x7d,",
  "                '404': \x7b description: '$\x7bModelName\x7d not found' \x7d,",
  "            \x7d,",
  "        \x7d,",
  "    \x7d,",
  "\x7d;",
  "",
  "export default $\x7bmodelName\x7dPaths;"]

def docDefinition : List String := [
  "const $\x7bmodelName\x7dDefinitions = $\x7bswaggerDef\x7d;",
  "",
  "export default $\x7bmodelName\x7dDefinitions;"]

end EntityScaffold.Template.Packaged
